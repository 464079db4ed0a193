import Mathlib.Logic.Function.Basic

/-!
# Threads that share a state

A configuration has a shared state and, for every thread, the place in its code. What is known of
a thread at its place is an assertion about the shared state, and the rule `Config.Fits.move` says
when a step of one thread keeps the assertions of all of them: the thread that moves establishes
its own, and it does not disturb those of the others.

`RLock` is a re-entrant lock.
-/

namespace Thread

variable {G P σ : Type}

/-! ## Configurations -/

/-- A shared state and the places of the threads. -/
structure Config (G P σ : Type) where
  shared : σ
  place : G → P

namespace Config

variable [DecidableEq G] {c : Config G P σ} {g : G} {next : Option (σ × P)}

/-- The thread moves on, or stays where it is if it is blocked. -/
def move (c : Config G P σ) (g : G) : Option (σ × P) → Config G P σ
  | none => c
  | some (s, p) => { shared := s, place := Function.update c.place g p }

/-- The invariant of the shared state, and the assertions at the places of the threads. -/
structure Fits (Inv : σ → Prop) (At : σ → G → P → Prop) (c : Config G P σ) : Prop where
  inv : Inv c.shared
  place : ∀ g, At c.shared g (c.place g)

/-- A step that establishes the assertion of its thread and disturbs no other one keeps all
    assertions. -/
theorem Fits.move {Inv : σ → Prop} {At : σ → G → P → Prop} (h : c.Fits Inv At)
    (hself : ∀ s p, next = some (s, p) → Inv s ∧ At s g p)
    (hother : ∀ s p, next = some (s, p) → ∀ g' ≠ g, ∀ p', At c.shared g' p' → At s g' p') :
    (c.move g next).Fits Inv At := by
  cases hnext : next with
  | none => exact h
  | some r =>
    obtain ⟨s, p⟩ := r
    refine ⟨(hself s p hnext).1, fun g' => ?_⟩
    show At s g' (Function.update c.place g p g')
    by_cases hg : g' = g
    · subst hg
      rw [Function.update_self]
      exact (hself s p hnext).2
    · rw [Function.update_of_ne hg]
      exact hother s p hnext g' hg _ (h.place g')

end Config

/-! ## Re-entrant locks -/

/-- A re-entrant lock: the thread that owns it, and how often that thread has acquired it. -/
structure RLock (G : Type) where
  owner : Option G := none
  count : Nat := 0
  deriving DecidableEq, Repr

namespace RLock

variable [DecidableEq G] {l l' : RLock G} {g h : G}

/-- The result of `acquire` and the lock after it. A thread that waits for the lock has no
    result. -/
def acquire (l : RLock G) (g : G) (blocking : Bool) : Option (Bool × RLock G) :=
  match l.owner with
  | none => some (true, { owner := some g, count := 1 })
  | some h =>
    if h = g then some (true, { l with count := l.count + 1 })
    else if blocking then none
    else some (false, l)

/-- A thread that does not own the lock cannot release it. -/
def release (l : RLock G) (g : G) : Option (RLock G) :=
  if l.owner = some g then
    some { owner := if l.count = 1 then none else some g, count := l.count - 1 }
  else none

theorem owner_of_acquire {blocking : Bool} (h : l.acquire g blocking = some (true, l')) :
    l'.owner = some g := by
  rw [acquire] at h
  split at h
  · cases h; rfl
  · rename_i o ho
    split at h
    · rename_i hg
      cases h
      rw [ho, hg]
    · split at h <;> cases h

/-- Nobody takes a lock from its owner. -/
theorem owner_acquire_of_ne {blocking result : Bool}
    (hacquire : l.acquire g blocking = some (result, l')) (hg : h ≠ g)
    (howner : l.owner = some h) : l'.owner = some h := by
  simp only [acquire, howner, if_neg hg] at hacquire
  split at hacquire
  · cases hacquire
  · cases hacquire; exact howner

theorem owner_release_of_ne (hrelease : l.release g = some l') (hg : h ≠ g)
    (howner : l.owner = some h) : l'.owner = some h := by
  have hne : l.owner ≠ some g := fun heq => hg (Option.some.inj (howner.symm.trans heq))
  rw [release, if_neg hne] at hrelease
  cases hrelease

end RLock

end Thread
