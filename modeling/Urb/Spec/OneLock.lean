import Urb.ForStd.Run
import Urb.Native.Lock
import Urb.Native.LockCreation

/-!
# One lock for each framework

Greenlets call `__acquire_framework_lock` in any order, and are interrupted between any two
statements. A framework gets one lock at most: who finds no lock and creates one has looked for it
under `__new_framework_lock`, and nobody else can create one before it is stored.
-/

namespace Urb

open Function (update update_self update_of_ne)

variable {l : Nat} {blocking : Bool}

open Thread

variable {G F : Type} {p p' : LockPlace F} {s : LockTable G F} {x : RLock G}

/-! ## The invariant -/

namespace LockTable

variable {s s' : LockTable G F} {g h : G} {f : F} {blocking : Bool}

/-- The locks that were stored for a framework are the one it has, and that one was created. -/
structure Unique (s : LockTable G F) : Prop where
  stored : ∀ f, s.stored f = (s.lock f).toList
  created : ∀ f l, s.lock f = some l → l < s.created

/-- The greenlet holds the lock of the framework. -/
def Holds (s : LockTable G F) (g : G) (f : F) : Prop :=
  ∃ l, s.lock f = some l ∧ (s.locks l).owner = some g

/-- What a greenlet knows at each statement. -/
def At (s : LockTable G F) (g : G) : LockPlace F → Prop
  | .check _ _ => s.newFrameworkLock.owner = some g
  | .create f _ => s.newFrameworkLock.owner = some g ∧ s.lock f = none
  | .acquire f _ l => s.lock f = some l
  | .setLockAcquired f => s.Holds g f
  | .returned (some f) true => s.Holds g f
  | _ => True

/-- What a step of a greenlet may do to what the others know. -/
structure Spares (g : G) (s s' : LockTable G F) : Prop where
  newFrameworkLock : ∀ h ≠ g, s.newFrameworkLock.owner = some h →
    s'.newFrameworkLock.owner = some h
  lock : ∀ f l, s.lock f = some l → s'.lock f = some l
  noLock : s.newFrameworkLock.owner ≠ some g → s'.lock = s.lock
  locks : ∀ h ≠ g, ∀ f, s.Holds h f → s'.Holds h f

namespace Spares

theorem refl (g : G) (s : LockTable G F) : Spares g s s :=
  ⟨fun _ _ => id, fun _ _ => id, fun _ => rfl, fun _ _ _ => id⟩

theorem setLockAcquired (g : G) (s : LockTable G F) (lockAcquired : F → Bool) :
    Spares g s { s with lockAcquired } :=
  ⟨fun _ _ => id, fun _ _ => id, fun _ => rfl, fun _ _ _ => id⟩

theorem setNewFrameworkLock {l : RLock G}
    (hl : ∀ h ≠ g, s.newFrameworkLock.owner = some h → l.owner = some h) :
    Spares g s { s with newFrameworkLock := l } :=
  ⟨hl, fun _ _ => id, fun _ => rfl, fun _ _ _ => id⟩

theorem setLocks (hx : ∀ h ≠ g, (s.locks l).owner = some h → x.owner = some h) :
    Spares g s { s with locks := update s.locks l x } where
  newFrameworkLock _ _ := id
  lock _ _ := id
  noLock _ := rfl
  locks h hg f := by
    rintro ⟨k, hk, howner⟩
    refine ⟨k, hk, ?_⟩
    show (update s.locks l x k).owner = some h
    by_cases hkl : k = l
    · subst hkl
      rw [update_self]
      exact hx h hg howner
    · rw [update_of_ne hkl]
      exact howner

theorem at_of_ne (hspares : Spares g s s') (hg : h ≠ g) (hat : s.At h p) : s'.At h p := by
  cases p with
  | check f blocking => exact hspares.newFrameworkLock h hg hat
  | create f blocking =>
    obtain ⟨howner, hnone⟩ := hat
    refine ⟨hspares.newFrameworkLock h hg howner, ?_⟩
    -- the greenlet that steps does not have the lock, so that it stores nothing
    have hne : s.newFrameworkLock.owner ≠ some g := fun heq =>
      hg (Option.some.inj (howner.symm.trans heq))
    rw [hspares.noLock hne]
    exact hnone
  | acquire f blocking l => exact hspares.lock f l hat
  | setLockAcquired f => exact hspares.locks h hg f hat
  | returned framework result =>
    cases framework with
    | none => trivial
    | some f =>
      cases result with
      | false => trivial
      | true => exact hspares.locks h hg f hat
  | _ => trivial

end Spares

/-! ## One step -/

/-- What a step of a greenlet comes to. -/
structure Kept (g : G) (s s' : LockTable G F) (p : LockPlace F) : Prop where
  spares : Spares g s s'
  unique : s'.Unique
  self : s'.At g p

theorem Unique.kept (h : s.Unique) (hp : s.At g p) : Kept g s s p :=
  ⟨.refl g s, h, hp⟩

theorem testFrameworkLock_at (s : LockTable G F) (g : G) (f : F) (blocking : Bool) :
    s.At g (s.testFrameworkLock f blocking) := by
  rw [testFrameworkLock]
  split
  · cases hlock : s.lock f with
    | none => trivial
    | some l => exact hlock
  · trivial

theorem Unique.setNewFrameworkLock (h : s.Unique) {l : RLock G}
    (hl : ∀ h ≠ g, s.newFrameworkLock.owner = some h → l.owner = some h)
    (hp : At { s with newFrameworkLock := l } g p) :
    Kept g s { s with newFrameworkLock := l } p :=
  ⟨.setNewFrameworkLock hl, ⟨h.stored, h.created⟩, hp⟩

theorem Unique.setLocks (h : s.Unique) (hx : ∀ h ≠ g, (s.locks l).owner = some h → x.owner = some h)
    (hp : At { s with locks := update s.locks l x } g p) :
    Kept g s { s with locks := update s.locks l x } p :=
  ⟨.setLocks hx, ⟨h.stored, h.created⟩, hp⟩

variable [DecidableEq F]

/-- The new lock is stored where there was none, by the greenlet that has `__new_framework_lock`. -/
theorem Unique.create (h : s.Unique) (howner : s.newFrameworkLock.owner = some g)
    (hnone : s.lock f = none) (hp : p = .releaseNew f blocking ∨ p = .raised) :
    Kept g s { s with
      created := s.created + 1
      locks := update s.locks s.created {}
      lock := update s.lock f (some s.created)
      stored := update s.stored f (s.stored f ++ [s.created]) } p := by
  have hkeep : ∀ f' l, s.lock f' = some l →
      update s.lock f (some s.created) f' = some l := by
    intro f' l hl
    have hne : f' ≠ f := by
      rintro rfl
      exact nomatch hnone.symm.trans hl
    rw [update_of_ne hne]
    exact hl
  refine ⟨⟨fun _ _ => id, hkeep, fun hne => absurd howner hne, ?_⟩, ⟨?_, ?_⟩, ?_⟩
  · rintro k hk f' ⟨l, hl, hlowner⟩
    refine ⟨l, hkeep f' l hl, ?_⟩
    have hlt := h.created f' l hl
    show (update s.locks s.created {} l).owner = some k
    rw [update_of_ne (by omega)]
    exact hlowner
  · intro f'
    show update s.stored f _ f' = (update s.lock f _ f').toList
    by_cases hf : f' = f
    · subst hf
      rw [update_self, update_self, h.stored, hnone]
      rfl
    · rw [update_of_ne hf, update_of_ne hf]
      exact h.stored f'
  · intro f' l hl
    change update s.lock f (some s.created) f' = some l at hl
    show l < s.created + 1
    by_cases hf : f' = f
    · subst hf
      rw [update_self] at hl
      cases hl
      omega
    · rw [update_of_ne hf] at hl
      have := h.created f' l hl
      omega
  · rcases hp with rfl | rfl <;> trivial

theorem Unique.releaseFrameworkLock (h : s.Unique) {framework : Option F}
    (hrelease : s.releaseFrameworkLock framework = (s', p)) : Kept g s s' p := by
  cases framework with
  | none =>
    cases hrelease
    exact h.kept trivial
  | some f =>
    simp only [LockTable.releaseFrameworkLock] at hrelease
    split at hrelease
    · split at hrelease
      · cases hrelease
        exact h.kept trivial
      · split at hrelease <;> cases hrelease
        · exact ⟨.setLockAcquired g s _, ⟨h.stored, h.created⟩, trivial⟩
        · exact h.kept trivial
    · split at hrelease <;> cases hrelease <;> exact h.kept trivial

variable [DecidableEq G]

theorem Unique.next (h : s.Unique) (hp : s.At g p)
    (hnext : s.next g p = some (s', p')) : Kept g s s' p' := by
  cases p with
  | idle => cases hnext
  | returned framework result => cases hnext
  | raised => cases hnext
  | getLock f blocking =>
    cases hnext
    apply h.kept
    split
    · trivial
    · exact testFrameworkLock_at s g f blocking
  | acquireNew f blocking =>
    obtain ⟨⟨result, l⟩, hacquire, hr⟩ := Option.map_eq_some_iff.mp hnext
    cases hr
    apply h.setNewFrameworkLock fun k hk => RLock.owner_acquire_of_ne hacquire hk
    cases result with
    | true => exact RLock.owner_of_acquire hacquire
    | false =>
      rw [if_neg Bool.false_ne_true]
      split <;> trivial
  | check f blocking =>
    cases hnext
    apply h.kept
    split
    · rename_i hnone
      exact ⟨hp, Option.isNone_iff_eq_none.mp hnone⟩
    · trivial
  | create f blocking =>
    cases hnext
    -- the logging line raises for a framework without an id
    exact h.create hp.1 hp.2 (ite_eq_or_eq _ _ _)
  | releaseNew f blocking =>
    simp only [LockTable.next] at hnext
    split at hnext
    · cases hnext
      exact h.kept trivial
    · rename_i l hrelease
      cases hnext
      exact h.setNewFrameworkLock (fun k hk => RLock.owner_release_of_ne hrelease hk) trivial
  | getLockAgain f blocking =>
    cases hnext
    exact h.kept (testFrameworkLock_at s g f blocking)
  | acquire f blocking l =>
    obtain ⟨⟨result, x⟩, hacquire, hr⟩ := Option.map_eq_some_iff.mp hnext
    cases hr
    apply h.setLocks fun k hk => RLock.owner_acquire_of_ne hacquire hk
    cases result with
    | true =>
      refine ⟨l, hp, ?_⟩
      show (update s.locks l x l).owner = some g
      rw [update_self]
      exact RLock.owner_of_acquire hacquire
    | false => trivial
  | setLockAcquired f =>
    cases hnext
    exact ⟨.setLockAcquired g s _, ⟨h.stored, h.created⟩, hp⟩
  | release l =>
    simp only [LockTable.next] at hnext
    split at hnext
    · cases hnext
      exact h.kept trivial
    · rename_i x hrelease
      cases hnext
      exact h.setLocks (fun k hk => RLock.owner_release_of_ne hrelease hk) trivial

end LockTable

/-! ## Whole runs -/

namespace Locking

variable [DecidableEq G] {c : Locking G F} {g : G} {f : F}

theorem fits_move (h : c.Fits LockTable.Unique LockTable.At)
    {next : Option (LockTable G F × LockPlace F)}
    (hnext : ∀ s p, next = some (s, p) → LockTable.Kept g c.shared s p) :
    (c.move g next).Fits LockTable.Unique LockTable.At :=
  h.move (fun s p hs => ⟨(hnext s p hs).unique, (hnext s p hs).self⟩)
    fun s p hs _ hg _ => (hnext s p hs).spares.at_of_ne hg

variable [DecidableEq F]

theorem fits_step (h : c.Fits LockTable.Unique LockTable.At) (m : LockMove G F) :
    (c.step m).Fits LockTable.Unique LockTable.At := by
  cases m with
  | callAcquire g framework blocking =>
    rw [step]
    split
    · apply fits_move h
      intro s p hs
      cases hs
      apply h.inv.kept
      cases framework <;> trivial
    · exact h
  | callRelease g framework =>
    rw [step]
    split
    · apply fits_move h
      intro s p hs
      exact h.inv.releaseFrameworkLock (Option.some.inj hs)
    · exact h
  | step g => exact fits_move h fun s p hs => h.inv.next (h.place g) hs

theorem fits_run (hasId : F → Bool) (moves : List (LockMove G F)) :
    (moves.foldl step (start hasId)).Fits LockTable.Unique LockTable.At := by
  have hstep : ∀ (c : Locking G F) (m : LockMove G F), c.Fits LockTable.Unique LockTable.At →
      True → (c.step m).Fits LockTable.Unique LockTable.At := fun _ m h _ => fits_step h m
  apply Run.invariant hstep
  · exact ⟨⟨fun _ => rfl, fun _ _ h => nomatch h⟩, fun _ => trivial⟩
  · exact Run.meets_of_forall (fun _ _ => trivial) _ _

/-- In every interleaving, one lock at most is ever stored for a framework, and a greenlet to which
    `__acquire_framework_lock` has returned `True` holds that lock. -/
theorem one_lock_per_framework (hasId : F → Bool) (moves : List (LockMove G F)) (f : F) :
    let c := moves.foldl step (start hasId)
    (c.shared.stored f).length ≤ 1 ∧
      ∀ g, c.place g = .returned (some f) true →
        ∃ l, c.shared.stored f = [l] ∧ c.shared.lock f = some l ∧
          (c.shared.locks l).owner = some g := by
  intro c
  have hfits : c.Fits LockTable.Unique LockTable.At := fits_run hasId moves
  constructor
  · rw [hfits.inv.stored f]
    cases c.shared.lock f with
    | none => exact Nat.zero_le 1
    | some l => exact Nat.le_refl 1
  · intro g hg
    have hat := hfits.place g
    rw [hg] at hat
    obtain ⟨l, hl, howner⟩ := hat
    exact ⟨l, by rw [hfits.inv.stored f, hl]; rfl, hl, howner⟩

end Locking

end Urb
