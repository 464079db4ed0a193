import Mathlib.Data.List.Induction
import Urb.Native.OfferLoop

/-!
# Wake-ups of the offer loop

The loop clears its event before it takes the lock and generates offers. While the event is not set,
nobody has set it since it was cleared, and so nobody has since the offers were generated. The loop
is blocked only while the event is not set.
-/

namespace Urb

open Greenlet

/-! ## Histories -/

/-- The event is set. -/
def pending (history : List OfferAction) : Bool :=
  history.foldl (fun b a => match a with | .set => true | .clear => false | _ => b) false

/-- A pass has started since the event was cleared. -/
def passStarted (history : List OfferAction) : Bool :=
  history.foldl (fun b a => match a with | .startPass => true | .clear => false | _ => b) false

theorem pending_concat (history : List OfferAction) (a : OfferAction) : pending (history ++ [a]) =
      match a with | .set => true | .clear => false | _ => pending history := by
  simp only [pending, List.foldl_append, List.foldl_cons, List.foldl_nil]

theorem passStarted_concat (history : List OfferAction) (a : OfferAction) :
    passStarted (history ++ [a]) =
      match a with | .startPass => true | .clear => false | _ => passStarted history := by
  simp only [passStarted, List.foldl_append, List.foldl_cons, List.foldl_nil]

/-- If a pass has started since the event was cleared and the event is not set, then the event was
    not set after the latest pass started. -/
theorem exists_latest_pass (history : List OfferAction) (hpending : pending history = false)
    (hpass : passStarted history = true) :
    ∃ before later : List OfferAction, history = before ++ OfferAction.startPass :: later ∧
      OfferAction.startPass ∉ later ∧ OfferAction.set ∉ later := by
  -- the latest action decides, so the induction is from the right
  induction history using List.reverseRec with
  | nil => cases hpass
  | append_singleton history a ih =>
    rw [pending_concat] at hpending
    rw [passStarted_concat] at hpass
    have hother (hset : a ≠ .set) (hstart : a ≠ .startPass) (hpending : pending history = false)
        (hpass : passStarted history = true) :
        ∃ before later : List OfferAction,
          history ++ [a] = before ++ OfferAction.startPass :: later ∧
          OfferAction.startPass ∉ later ∧ OfferAction.set ∉ later := by
      obtain ⟨before, later, heq, hnoPass, hnoSet⟩ := ih hpending hpass
      refine ⟨before, later ++ [a], by simp [heq], ?_, ?_⟩
      · simp [hnoPass, Ne.symm hstart]
      · simp [hnoSet, Ne.symm hset]
    cases a with
    | set => cases hpending
    | clear => cases hpass
    | startPass => exact ⟨history, [], rfl, List.not_mem_nil, List.not_mem_nil⟩
    | lock b => exact hother nofun nofun hpending hpass
    | wait => exact hother nofun nofun hpending hpass
    | resume => exact hother nofun nofun hpending hpass

/-! ## What each greenlet does -/

/-- A handler, or the loop, with whether it has started a pass since it cleared the event. -/
inductive OfferPhase where
  | handler
  | loop (started : Bool)

/-- Handlers only set the event. The loop waits after it has started a pass. -/
def OfferPhase.rule : OfferAction → OfferPhase → Option OfferPhase
  | .lock _, t => some t
  | .set, .handler => some .handler
  | .clear, .loop _ => some (.loop false)
  | .startPass, .loop _ => some (.loop true)
  | .wait, .loop true => some (.loop true)
  | .resume, .loop true => some (.loop true)
  | _, _ => none

namespace OfferPhase

/-- The loop is somewhere in its code. -/
def InLoop (t : OfferPhase) : Prop := ∃ started, t = .loop started

/-- The loop has started a pass. -/
def PassBegun (t : OfferPhase) : Prop := t = .loop true

theorem PassBegun.inLoop {t : OfferPhase} (h : t.PassBegun) : t.InLoop := ⟨true, h⟩

end OfferPhase

section Obeys

open OfferPhase

theorem obeys_lock (a : LockAction) {P : OfferPhase → Prop} {Q : Outcome → OfferPhase → Prop}
    (hnormal : ∀ t, P t → Q .normal t) (hraised : ∀ t, P t → Q .raised t) :
    (OfferCode.lock a).Obeys rule P Q :=
  .act fun t ht => ⟨t, rfl, hnormal t ht, hraised t ht⟩

theorem obeys_handler (h : OfferHandler) :
    h.stmt.Obeys rule (· = .handler) fun _ => (· = .handler) := by
  apply h.uses.obeys
  intro a t ha ht
  subst ht
  cases a with
  | lock b => exact ⟨_, rfl, rfl⟩
  | set => exact ⟨_, rfl, rfl⟩
  | clear => exact ha.elim
  | wait => exact ha.elim
  | resume => exact ha.elim
  | startPass => exact ha.elim

theorem obeys_pass (n : Nat) :
    (Stmt.tryExcept (.seq (.act .startPass) (OfferCode.statements .generateOffers n)) .skip).Obeys
      rule InLoop fun _ => PassBegun := by
  apply Stmt.Obeys.tryExcept (I := PassBegun)
  · apply Stmt.Obeys.seq (I := PassBegun)
    · apply Stmt.Obeys.act
      rintro t ⟨started, rfl⟩
      exact ⟨.loop true, rfl, rfl, rfl⟩
    · exact .works _ (fun _ ht => ht) fun _ ht => ht
  · exact .skip fun _ ht => ht

theorem obeys_offerIteration (k m n p : Nat) :
    (OfferCode.offerIteration k m n p).Obeys rule InLoop fun _ => InLoop := by
  apply Stmt.Obeys.tryExcept (I := InLoop)
  · apply Stmt.Obeys.seq (I := InLoop)
    · exact .works _ (fun _ ht => ht) fun _ ht => ht
    apply Stmt.Obeys.seq (I := InLoop)
    · apply Stmt.Obeys.act
      rintro t ⟨started, rfl⟩
      exact ⟨.loop false, rfl, ⟨_, rfl⟩, ⟨_, rfl⟩⟩
    apply Stmt.Obeys.seq (I := InLoop)
    · exact obeys_lock _ (fun _ ht => ht) fun _ ht => ht
    apply Stmt.Obeys.seq (I := InLoop)
    · exact .works _ (fun _ ht => ht) fun _ ht => ht
    -- from here on the pass has started
    apply Stmt.Obeys.seq (I := PassBegun)
    · apply Stmt.Obeys.tryFinally (obeys_pass n)
      intro o
      apply obeys_lock
      · intro t ht
        cases o with
        | normal => exact ht
        | raised => exact ht.inLoop
        | closed => exact ht.inLoop
      · exact fun t ht => ht.inLoop
    apply Stmt.Obeys.seq (I := PassBegun)
    · exact .works _ (fun _ ht => ht) fun _ ht => ht.inLoop
    apply Stmt.Obeys.seq (I := PassBegun)
    · apply Stmt.Obeys.act
      rintro t rfl
      exact ⟨_, rfl, rfl, ⟨_, rfl⟩⟩
    · apply Stmt.Obeys.act
      rintro t rfl
      exact ⟨_, rfl, ⟨_, rfl⟩, ⟨_, rfl⟩⟩
  · exact .skip fun _ ht => ht

theorem obeys_generateOffers (iterations k m n p : Nat) :
    (OfferCode.generateOffers iterations k m n p).Obeys rule InLoop fun _ => InLoop := by
  apply Stmt.Obeys.loop
  · intro cont hcont
    apply obeys_offerIteration k m n p
    intro o t ht
    cases o <;> exact hcont _ t ht
  · exact fun _ ht => ht

end Obeys

/-! ## What all greenlets do -/

variable {G : Type}

/-- The event is as the history and the greenlets say. -/
structure OfferFits (s : OfferShared (Option G)) (t : Option G → OfferPhase) : Prop where
  isSet : s.isSet = pending s.history
  waiting : ∀ g, s.waiting g = true → s.isSet = false
  handlers : ∀ g, t (some g) = .handler
  loop : ∃ started, t none = .loop started ∧ (started = true → passStarted s.history = true)

namespace OfferFits

variable {s s' : OfferShared (Option G)} {t : Option G → OfferPhase} {g : Option G}

theorem record (h : OfferFits s t) {a : OfferAction} (hset : s'.isSet = s.isSet)
    (hwaiting : s'.waiting = s.waiting) (hhistory : s'.history = s.history ++ [a])
    (hpending : pending (s.history ++ [a]) = pending s.history)
    (hpass : passStarted (s.history ++ [a]) = passStarted s.history) : OfferFits s' t where
  isSet := by rw [hset, hhistory, hpending, h.isSet]
  waiting := by rw [hset, hwaiting]; exact h.waiting
  handlers := h.handlers
  loop := by rw [hhistory, hpass]; exact h.loop

theorem timeout [DecidableEq G] (h : OfferFits s t) (g : Option G) : OfferFits (s.timeout g) t where
  isSet := h.isSet
  waiting g' hg' := by
    apply h.waiting g'
    by_cases hg : g' = g
    · subst hg
      simp [OfferShared.timeout] at hg'
    · simpa [OfferShared.timeout, hg] using hg'
  handlers := h.handlers
  loop := h.loop

theorem eq_none {started : Bool} (h : OfferFits s t) (hg : t g = .loop started) : g = none := by
  cases g with
  | none => rfl
  | some g =>
    rw [h.handlers g] at hg
    cases hg

variable [DecidableEq G]

theorem advance (h : OfferFits s t) {started : Bool} (hset : s'.isSet = pending s'.history)
    (hwaiting : ∀ g, s'.waiting g = true → s'.isSet = false)
    (hpass : started = true → passStarted s'.history = true) :
    OfferFits s' (Function.update t none (.loop started)) where
  isSet := hset
  waiting := hwaiting
  handlers g := by
    rw [Function.update_of_ne (Option.some_ne_none g)]
    exact h.handlers g
  loop := ⟨started, Function.update_self _ _ _, hpass⟩

theorem exec (h : OfferFits s t) (a : OfferAction) {t' : OfferPhase}
    (ht' : OfferPhase.rule a (t g) = some t') :
    (s.exec g a).Ends fun s' => OfferFits s' (Function.update t g t') := by
  cases a with
  | lock b =>
    cases ht'
    rw [Function.update_eq_self]
    simp only [OfferShared.exec]
    cases s.lock.exec g b with
    | blocked => trivial
    | ok lock => exact h.record rfl rfl rfl (pending_concat _ _) (passStarted_concat _ _)
    | raised lock => exact h.record rfl rfl rfl (pending_concat _ _) (passStarted_concat _ _)
  | set =>
    cases ht : t g with
    | loop started => rw [ht] at ht'; cases ht'
    | handler =>
      rw [ht] at ht'
      cases ht'
      rw [← ht, Function.update_eq_self]
      -- whoever waited is released
      refine ⟨(pending_concat s.history .set).symm, nofun, h.handlers, ?_⟩
      obtain ⟨started, hloop, hstarted⟩ := h.loop
      exact ⟨started, hloop, fun hs => (passStarted_concat s.history .set).trans (hstarted hs)⟩
  | clear =>
    cases ht : t g with
    | handler => rw [ht] at ht'; cases ht'
    | loop started =>
      rw [ht] at ht'
      cases ht'
      rw [h.eq_none ht]
      exact h.advance (pending_concat s.history .clear).symm (fun _ _ => rfl) nofun
  | startPass =>
    cases ht : t g with
    | handler => rw [ht] at ht'; cases ht'
    | loop started =>
      rw [ht] at ht'
      cases ht'
      rw [h.eq_none ht]
      exact h.advance (h.isSet.trans (pending_concat s.history .startPass).symm) h.waiting
        fun _ => passStarted_concat s.history .startPass
  | wait =>
    obtain ht : t g = t' := by
      cases ht : t g with
      | handler => rw [ht] at ht'; cases ht'
      | loop started => cases started <;> rw [ht] at ht' <;> cases ht'; rfl
    rw [← ht, Function.update_eq_self]
    have hrecord : OfferFits (s.record .wait) t :=
      h.record rfl rfl rfl (pending_concat _ _) (passStarted_concat _ _)
    simp only [OfferShared.exec]
    split
    · exact hrecord
    · rename_i hset
      have hset : s.isSet = false := by simpa using hset
      exact ⟨hrecord.isSet, fun _ _ => hset, hrecord.handlers, hrecord.loop⟩
  | resume =>
    obtain ht : t g = t' := by
      cases ht : t g with
      | handler => rw [ht] at ht'; cases ht'
      | loop started => cases started <;> rw [ht] at ht' <;> cases ht'; rfl
    rw [← ht, Function.update_eq_self]
    simp only [OfferShared.exec]
    split
    · trivial
    · exact h.record rfl rfl rfl (pending_concat _ _) (passStarted_concat _ _)

end OfferFits

namespace OfferSystem

variable {c : OfferSystem G}

/-- The event is as the greenlets think it is, and they obey their rules. -/
def InOrder (c : OfferSystem G) : Prop := c.Obedient OfferPhase.rule OfferFits

theorem inOrder_idle : InOrder (idle : OfferSystem G) := by
  refine ⟨fun g => if g.isSome then .handler else .loop false, ?_, fun _ => trivial⟩
  exact ⟨rfl, nofun, fun _ => rfl, ⟨false, rfl, nofun⟩⟩

variable [DecidableEq G]

theorem InOrder.step (h : InOrder c) (e : OfferLoopEvent G) : InOrder (offerLoopStep c e) := by
  have hact : ∀ (s : OfferShared (Option G)) t g a t', OfferFits s t →
      OfferPhase.rule a (t g) = some t' →
      (s.exec g a).Ends fun s' => OfferFits s' (Function.update t g t') :=
    fun s t g a t' hfits ht' => hfits.exec a ht'
  cases e with
  | startLoop iterations k m n p =>
    refine System.Obedient.step hact h fun g p' hm t hfits => ?_
    cases hm
    obtain ⟨started, hloop, -⟩ := hfits.loop
    exact (obeys_generateOffers iterations k m n p).code ⟨started, hloop⟩
  | startHandler g handler =>
    refine System.Obedient.step hact h fun g' p' hm t hfits => ?_
    cases hm
    exact (obeys_handler handler).code (hfits.handlers g)
  | step g goesOn => exact System.Obedient.step hact h nofun
  | timeout =>
    obtain ⟨t, hfits, hobeys⟩ := h
    exact ⟨t, hfits.timeout none, hobeys⟩

theorem inOrder_run (events : List (OfferLoopEvent G)) (h : InOrder c) :
    InOrder (events.foldl offerLoopStep c) := by
  induction events generalizing c with
  | nil => exact h
  | cons e events ih => exact ih (h.step e)

/-- In every interleaving of the loop with handlers, whenever the loop is blocked in
    `offer_event.wait`, it has generated offers, and the event was not set after the latest pass
    started. -/
theorem no_wake_up_lost (events : List (OfferLoopEvent G))
    (hblocked : blockedInWait (events.foldl offerLoopStep idle) = true) :
    ∃ before later : List OfferAction,
      (events.foldl offerLoopStep idle).shared.history =
        before ++ OfferAction.startPass :: later ∧
      OfferAction.startPass ∉ later ∧ OfferAction.set ∉ later := by
  obtain ⟨t, hfits, hobeys⟩ := inOrder_run events (inOrder_idle (G := G))
  generalize events.foldl offerLoopStep idle = c at *
  have hloop := hobeys none
  unfold blockedInWait at hblocked
  split at hblocked
  · rename_i next raised hcode
    rw [hcode] at hloop
    obtain ⟨t', ht', -⟩ := hloop
    obtain ⟨started, hphase, hpass⟩ := hfits.loop
    rw [hphase] at ht'
    -- the rules let only a loop that has started a pass come here
    cases started with
    | false => cases ht'
    | true =>
      apply exists_latest_pass _ _ (hpass rfl)
      rw [← hfits.isSet, hfits.waiting none hblocked]
  · cases hblocked

/-- A handler sets the event between the clearing of the event and the pass of the first iteration,
    so that the loop makes a second one before it waits. -/
def setDuringIteration : List (OfferLoopEvent Unit) :=
  [OfferLoopEvent.startLoop 2 1 1 1 1] ++ List.replicate 2 (OfferLoopEvent.step none true) ++
    [OfferLoopEvent.startHandler () (.queued 1 1 true true)] ++
    List.replicate 9 (OfferLoopEvent.step (some ()) true) ++
    List.replicate 8 (OfferLoopEvent.step none true) ++
    List.replicate 9 (OfferLoopEvent.step none true)

theorem set_during_iteration_not_lost :
    blockedInWait (setDuringIteration.foldl offerLoopStep idle) = true ∧
      ∃ before later : List OfferAction,
        (setDuringIteration.foldl offerLoopStep idle).shared.history =
          before ++ OfferAction.startPass :: later ∧
        OfferAction.startPass ∉ later ∧ OfferAction.set ∉ later := by
  have hblocked : blockedInWait (setDuringIteration.foldl offerLoopStep idle) = true := by
    decide +kernel
  exact ⟨hblocked, no_wake_up_lost setDuringIteration hblocked⟩

end OfferSystem

end Urb
