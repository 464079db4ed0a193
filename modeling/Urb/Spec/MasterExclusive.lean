import Urb.ForStd.Run
import Urb.Native.MasterElector

/-!
# At most one service acts as master

A service that acts as master, or that has found its id in the key and is about to be elected,
`Claims` the key. The key of a claiming service does not time out and is not overwritten, since
`SET NX` writes only a key that is not there. But `shutdown_callback` deletes the key whoever's
id it holds. This file shows that this is the only way to get a second master.

## Key results

- `Cluster.master_exclusive`: at most one service acts as master, in every run in which no shutdown
  deletes a key that is claimed.
-/

namespace Urb

variable {ι : Type} [DecidableEq ι] {c : Cluster ι} {e : Elector ι} {id : ι} {raises : Bool}

/-- The service acts as master, or will be elected when its refresh has returned. -/
def Elector.Claims (e : Elector ι) : Prop :=
  e.running = true ∧ (e.acting = true ∨ (e.pc = .refresh ∧ e.wereMb = false))

instance (e : Elector ι) : Decidable e.Claims := inferInstanceAs (Decidable (_ ∧ _))

namespace Cluster

/-- At most one running service acts as master. -/
def Exclusive (c : Cluster ι) : Prop :=
  ∀ i j, (c.services i).running = true → (c.services i).acting = true →
    (c.services j).running = true → (c.services j).acting = true → i = j

/-- The key holds the id of the service that claims it. -/
def Claimed (c : Cluster ι) : Prop := ∀ i, (c.services i).Claims → c.key = some i

omit [DecidableEq ι] in
theorem Claimed.exclusive (h : c.Claimed) : c.Exclusive := by
  intro i j hi hacti hj hactj
  have hkeyi := h i ⟨hi, .inl hacti⟩
  have hkeyj := h j ⟨hj, .inl hactj⟩
  rw [hkeyi] at hkeyj
  exact Option.some.inj hkeyj

/-! ## One step -/

theorem determined_claims {masterBroker : Option ι} (h : (e.determined id masterBroker).Claims) :
    masterBroker = some id ∨ (e.running = true ∧ e.acting = true) := by
  unfold Elector.determined at h
  dsimp only at h
  split at h
  · rename_i hmaster
    exact .inl (of_decide_eq_true hmaster)
  · obtain ⟨hrun, hact | ⟨hpc, -⟩⟩ := h
    · rw [Bool.and_eq_true] at hact
      exact .inr ⟨hrun, hact.1⟩
    · cases hpc

/-- A step of `elect` claims only a key that holds the id of the service. -/
theorem elect_claims {key : Option ι} (h : (e.elect id raises key).2.Claims) :
    (e.elect id raises key).1 = some id ∨ e.Claims := by
  -- before the refresh only a service that acts as master claims anything
  have hacting : ∀ {e' : Elector ι}, e'.Claims → e'.pc ≠ .refresh → e'.running = e.running →
      e'.acting = e.acting → e.Claims := by
    intro e' hclaims hpc hrun hact
    refine ⟨hrun ▸ hclaims.1, .inl ?_⟩
    rw [← hact]
    exact hclaims.2.resolve_right fun hrefresh => hpc hrefresh.1
  have hdetermined : ∀ {e' : Elector ι} {masterBroker},
      (e'.determined id masterBroker).Claims → e'.running = e.running → e'.acting = e.acting →
      masterBroker = some id ∨ e.Claims := by
    intro e' masterBroker hclaims hrun hact
    exact (determined_claims hclaims).imp_right fun h => ⟨hrun ▸ h.1, .inl (hact ▸ h.2)⟩
  cases hpc : e.pc with
  | get =>
    cases raises with
    | true =>
      simp only [Elector.elect, hpc, ↓reduceIte] at h
      exact .inr (hacting h nofun rfl rfl)
    | false =>
      cases key with
      | some master =>
        simp only [Elector.elect, hpc, Bool.false_eq_true, ↓reduceIte] at h ⊢
        exact hdetermined h rfl rfl
      | none =>
        simp only [Elector.elect, hpc, Bool.false_eq_true, ↓reduceIte] at h
        exact .inr (hacting h nofun rfl rfl)
  | set =>
    cases raises with
    | true =>
      simp only [Elector.elect, hpc, ↓reduceIte] at h
      exact .inr (hacting h nofun rfl rfl)
    | false =>
      cases key with
      | some master =>
        simp only [Elector.elect, hpc, Bool.false_eq_true, ↓reduceIte] at h
        exact .inr (hacting h nofun rfl rfl)
      | none =>
        simp only [Elector.elect, hpc, Bool.false_eq_true, ↓reduceIte]
        exact .inl trivial
  | getAgain =>
    cases raises with
    | true =>
      simp only [Elector.elect, hpc, ↓reduceIte] at h
      exact .inr (hacting h nofun rfl rfl)
    | false =>
      simp only [Elector.elect, hpc, Bool.false_eq_true, ↓reduceIte] at h ⊢
      exact hdetermined h rfl rfl
  | refresh =>
    -- the refresh has returned: the service is elected unless it was master before
    simp only [Elector.elect, hpc] at h
    obtain ⟨hrun, hact | ⟨hrefresh, -⟩⟩ := h
    · rw [Bool.or_eq_true, Bool.not_eq_true'] at hact
      exact .inr ⟨hrun, hact.imp_right fun hwere => ⟨hpc, hwere⟩⟩
    · cases hrefresh

theorem elect_key {master : ι} (e : Elector ι) :
    (e.elect id raises (some master)).1 = some master := by
  unfold Elector.elect
  cases e.pc with
  | get => cases raises <;> rfl
  | set => cases raises <;> rfl
  | getAgain => cases raises <;> rfl
  | refresh => rfl

/-! ## Runs -/

/-- A shutdown that gets to its `EXPIRE` finds no key that is claimed. -/
def FreesUnclaimed (c : Cluster ι) (ev : ElectionEvent ι) : Prop :=
  ∀ id, ev = .expire id → (c.services id).running = true → 0 < (c.services id).closing →
    ∀ j, c.key = some j → ¬(c.services j).Claims

theorem update_claims {i : ι}
    (h : ((c.update id e).services i).Claims) : (i = id ∧ e.Claims) ∨ (c.services i).Claims := by
  by_cases hid : i = id
  · subst hid
    simp only [update, Function.update_self] at h
    exact .inl ⟨rfl, h⟩
  · simp only [update, Function.update_of_ne hid] at h
    exact .inr h

theorem Claimed.update (h : c.Claimed)
    (he : e.Claims → (c.services id).Claims) : (c.update id e).Claimed := by
  intro i hi
  rcases update_claims hi with ⟨rfl, hclaims⟩ | hclaims
  · exact h i (he hclaims)
  · exact h i hclaims

theorem elect_claimed (h : c.Claimed) (id : ι) (raises : Bool) :
    (c.step (.elect id raises)).Claimed := by
  unfold step
  dsimp only
  split
  · intro i hi
    -- a key that is claimed already is there, so the loop leaves it
    have hkept : (c.services i).Claims →
        ((c.services id).elect id raises c.key).1 = some i := by
      intro hclaims
      rw [h i hclaims, elect_key]
    rcases update_claims hi with ⟨rfl, hclaims⟩ | hclaims
    · exact (elect_claims hclaims).elim (fun hkey => hkey) hkept
    · exact hkept hclaims
  · exact h

theorem expire_claimed (h : c.Claimed)
    (hfree : c.FreesUnclaimed (.expire id)) : (c.step (.expire id)).Claimed := by
  unfold step
  dsimp only
  split
  · rename_i hclosing
    rw [Bool.and_eq_true, decide_eq_true_eq] at hclosing
    -- nobody claims the key, so nobody claims any key
    have hnone : ∀ i, ¬(c.services i).Claims := by
      intro i hi
      exact hfree id rfl hclosing.1 hclosing.2 i (h i hi) hi
    intro i hi
    rcases update_claims hi with ⟨rfl, hclaims⟩ | hclaims
    · exact (hnone i hclaims).elim
    · exact (hnone i hclaims).elim
  · exact h

theorem timeOut_claimed (h : c.Claimed) : (c.step .timeOut).Claimed := by
  unfold step
  cases hkey : c.key with
  | none => exact h
  | some id =>
    dsimp only
    split
    · exact h
    · rename_i hstopped
      intro i hi
      -- the key holds the id of a service that does not run
      have hid := h i hi
      rw [hkey] at hid
      rw [Option.some.inj hid] at hstopped
      exact (hstopped hi.1).elim

theorem step_claimed {ev : ElectionEvent ι} (h : c.Claimed)
    (hfree : c.FreesUnclaimed ev) : (c.step ev).Claimed := by
  cases ev with
  | elect id raises => exact elect_claimed h id raises
  | shutdown id =>
    unfold step
    dsimp only
    split
    · apply h.update
      intro hclaims
      exact ⟨hclaims.1, .inr (hclaims.2.resolve_left Bool.false_ne_true)⟩
    · exact h
  | expire id => exact expire_claimed h hfree
  | stop id =>
    apply h.update
    intro hclaims
    exact (Bool.false_ne_true hclaims.1).elim
  | timeOut => exact timeOut_claimed h

/-- At most one running service acts as master, in every run of a cluster in which no shutdown
    deletes a key that is claimed. -/
theorem master_exclusive (c : Cluster ι) (hstart : ∀ id, ¬(c.services id).Claims)
    (events : List (ElectionEvent ι)) (hfree : Run.Meets step FreesUnclaimed c events) :
    (events.foldl step c).Exclusive := by
  have hclaimed : c.Claimed := fun i hi => (hstart i hi).elim
  have hstep : ∀ (c : Cluster ι) ev, c.Claimed → c.FreesUnclaimed ev → (c.step ev).Claimed :=
    fun c ev h hfree => step_claimed h hfree
  exact (Run.invariant hstep hclaimed hfree).exclusive

/-- Three services that have just been started. -/
def threeServices : Cluster (Fin 3) where
  key := none
  services _ := {}

/-- The service becomes the master: `GET`, `SET`, `EXPIRE`. -/
def election (id : Fin 3) : List (ElectionEvent (Fin 3)) :=
  [.elect id false, .elect id false, .elect id false]

/-- The master shuts down and another service takes over. -/
def handover : List (ElectionEvent (Fin 3)) :=
  election 0 ++ ElectionEvent.shutdown 0 :: .expire 0 :: election 1

/-- The shutdown of the master is requested twice, and both times its key is deleted. -/
def secondShutdown : List (ElectionEvent (Fin 3)) :=
  election 0 ++ ElectionEvent.shutdown 0 :: .shutdown 0 :: .expire 0 :: election 1 ++
    ElectionEvent.expire 0 :: election 2

theorem master_exclusive_handover : (handover.foldl step threeServices).Exclusive := by
  apply master_exclusive threeServices (by decide)
  refine ⟨nofun, nofun, nofun, nofun, ?_, nofun, nofun, nofun, trivial⟩
  intro _ _ _ _ j _
  revert j
  decide

/-- The first shutdown deletes the master's own key and another service is elected; the second one
    deletes the key of that service, and a third one is elected while it still acts as master. -/
theorem second_shutdown_two_masters :
    let c := secondShutdown.foldl step threeServices
    (∀ id : Fin 3, id ≠ 0 → (c.services id).running = true ∧ (c.services id).acting = true) ∧
      ¬c.Exclusive := by
  intro c
  have hboth : ∀ id : Fin 3, id ≠ 0 → (c.services id).running = true ∧ (c.services id).acting = true := by
    decide
  refine ⟨hboth, fun h => ?_⟩
  have h1 := hboth 1 (by decide)
  have h2 := hboth 2 (by decide)
  exact absurd (h 1 2 h1.1 h1.2 h2.1 h2.2) (by decide)

end Cluster

end Urb
