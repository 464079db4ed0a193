import Urb.Spec.Launch
import Urb.Spec.NoLeak

/-!
# When there is nothing to delete

Post-processing changes nothing exactly if every queued deletion is of an element that is
no longer there. A state with this property is `Swept`. For each handler this file says
when the state it leaves is swept: it has to start from a swept state, and it must not
reach a statement that queues a deletion.
-/

namespace Urb

open EStateM (Result after_bind after_eq_state bind_apply get_apply modify_apply pure_apply
  throw_apply)

variable {des : List DeleteElement} {de : DeleteElement} {offerId : String} {f : Framework}
    {offer : Offer} {s' s1 : State}

variable (maxRejectedOffers : Nat) (t refuseSeconds : Option ℚ) (s : State) (env : Env) (k : String)

/-! ## Swept states -/

/-- The element is in its dictionary. -/
def Framework.Has (f : Framework) (de : DeleteElement) : Prop :=
  match de.dict with
  | .tasks => de.key ∈ f.tasks
  | .slaves => de.key ∈ f.slaves
  | .offers => de.key ∈ f.offers

/-- No element whose deletion is queued is still there. -/
def Swept (s : State) : Prop := ∀ de ∈ s.deleteElements, ¬s.framework.Has de

theorem DeleteElement.delete_of_not_has (h : ¬f.Has de) : de.delete f = f := by
  have herase : ∀ {β : Type} (d : Dict β), de.key ∉ d → d.erase de.key = d := by
    intro β d hd
    exact AList.ext (List.kerase_of_notMem_keys hd)
  obtain ⟨d, k⟩ := de
  cases d with
  | tasks =>
    have hmap : f.taskDict.map (·.erase k) = f.taskDict := by
      cases hd : f.taskDict with
      | none => rfl
      | some t =>
        have hk : k ∉ t := by simpa [Framework.Has, Framework.tasks, hd] using h
        exact congrArg some (herase t hk)
    simp only [DeleteElement.delete, hmap]
  | slaves =>
    have hmap : f.slaveDict.map (·.erase k) = f.slaveDict := by
      cases hd : f.slaveDict with
      | none => rfl
      | some t =>
        have hk : k ∉ t := by simpa [Framework.Has, Framework.slaves, hd] using h
        exact congrArg some (herase t hk)
    simp only [DeleteElement.delete, hmap]
  | offers =>
    have herased : f.offers.erase k = f.offers := herase f.offers h
    simp only [DeleteElement.delete, herased]

/-- Post-processing a swept state changes nothing. -/
theorem deleteAll_eq_self (h : ∀ de ∈ des, ¬f.Has de) : deleteAll des f = f := by
  induction des with
  | nil => rfl
  | cons de des ih =>
    have hhead : de.delete f = f := DeleteElement.delete_of_not_has (h de (by simp))
    have htail := ih fun de' hde' => h de' (List.mem_cons_of_mem _ hde')
    rw [deleteAll, List.foldl_cons, hhead]
    exact htail

theorem not_has_deleteAll (h : de ∈ des) (f : Framework) : ¬(deleteAll des f).Has de := by
  obtain ⟨d, k⟩ := de
  cases d with
  | tasks =>
    show k ∉ (deleteAll des f).tasks
    rw [← AList.lookup_eq_none, lookup_tasks_deleteAll, if_pos h]
  | slaves =>
    show k ∉ (deleteAll des f).slaves
    rw [← AList.lookup_eq_none, lookup_slaves_deleteAll, if_pos h]
  | offers =>
    show k ∉ (deleteAll des f).offers
    rw [← AList.lookup_eq_none, lookup_offers_deleteAll, if_pos h]

/-! ## Computations and the queued deletions -/

/-- Nothing is taken away: neither from the dictionaries nor from the queue. -/
structure Grows (s s' : State) : Prop where
  pending : s.deleteElements ⊆ s'.deleteElements
  has : ∀ de, s.framework.Has de → s'.framework.Has de

/-- Neither the keys of the dictionaries nor the queue changes. -/
structure SameKeys (s s' : State) : Prop where
  pending : s'.deleteElements = s.deleteElements
  has : ∀ de, s'.framework.Has de ↔ s.framework.Has de

theorem Grows.refl : Grows s s := ⟨fun _ h => h, fun _ h => h⟩

theorem Grows.trans {s2 s3 : State} (h : Grows s1 s2) (h' : Grows s2 s3) : Grows s1 s3 :=
  ⟨fun _ hde => h'.pending (h.pending hde), fun de hde => h'.has de (h.has de hde)⟩

theorem Grows.swept {s : State} (h : Grows s s') (hs : Swept s') : Swept s :=
  fun de hde hhas => hs de (h.pending hde) (h.has de hhas)

theorem SameKeys.refl : SameKeys s s := ⟨rfl, fun _ => Iff.rfl⟩

theorem SameKeys.trans {s2 s3 : State} (h : SameKeys s1 s2) (h' : SameKeys s2 s3) :
    SameKeys s1 s3 :=
  ⟨h'.pending.trans h.pending, fun de => (h'.has de).trans (h.has de)⟩

theorem SameKeys.grows {s : State} (h : SameKeys s s') : Grows s s' :=
  ⟨fun _ hde => h.pending ▸ hde, fun de => (h.has de).mpr⟩

theorem SameKeys.swept_iff {s : State} (h : SameKeys s s') : Swept s' ↔ Swept s := by
  simp only [Swept, h.pending, h.has]

theorem not_swept_of_queue (s : State) (de : DeleteElement) (hhas : s.framework.Has de)
    (h : Grows { s with deleteElements := s.deleteElements ++ [de] } s') : ¬Swept s' := by
  have hmem : de ∈ s.deleteElements ++ [de] := by simp
  exact fun hs => h.swept hs de hmem hhas

theorem has_of_lookups {f' : Framework}
    (ht : ∀ k, (f'.tasks.lookup k).isSome = (f.tasks.lookup k).isSome)
    (hs : ∀ k, (f'.slaves.lookup k).isSome = (f.slaves.lookup k).isSome)
    (ho : f'.offers = f.offers) (de : DeleteElement) : f'.Has de ↔ f.Has de := by
  obtain ⟨d, k⟩ := de
  cases d with
  | tasks =>
    show k ∈ f'.tasks ↔ k ∈ f.tasks
    rw [← AList.lookup_isSome, ← AList.lookup_isSome, ht]
  | slaves =>
    show k ∈ f'.slaves ↔ k ∈ f.slaves
    rw [← AList.lookup_isSome, ← AList.lookup_isSome, hs]
  | offers =>
    show k ∈ f'.offers ↔ k ∈ f.offers
    rw [ho]

/-! ### Assignments -/

theorem SameKeys.modifyTask (g : TaskRecord → TaskRecord) :
    SameKeys s { s with framework := s.framework.modifyTask k g } := by
  have ht := fun k' => Framework.mem_modifyTask s.framework k k' g
  have hs := Framework.slaves_modifyTask s.framework k g
  obtain ⟨d, hd⟩ := s.framework.exists_modifyTask k g
  rw [hd] at ht hs ⊢
  refine ⟨rfl, has_of_lookups (fun k' => ?_) (fun _ => by rw [hs]) rfl⟩
  rw [Bool.eq_iff_iff, AList.lookup_isSome, AList.lookup_isSome, ht]

theorem SameKeys.modifySlave (g : Slave → Slave) :
    SameKeys s { s with framework := s.framework.modifySlave k g } := by
  have hs := fun k' => Framework.lookup_modifySlave s.framework k k' g
  have ht := Framework.tasks_modifySlave s.framework k g
  obtain ⟨d, hd⟩ := s.framework.exists_modifySlave k g
  rw [hd] at ht hs ⊢
  refine ⟨rfl, has_of_lookups (fun _ => by rw [ht]) (fun k' => ?_) rfl⟩
  rw [hs]
  split
  · rename_i h; subst h; simp
  · rfl

theorem SameKeys.withSlave {s : State} {k : String} {x : Slave}
    (hx : s.framework.slaves.lookup k = some x) (y : Slave) : SameKeys s (s.withSlave k y) := by
  refine ⟨rfl, has_of_lookups (fun _ => rfl) (fun k' => ?_) rfl⟩
  rw [Framework.slaves_setSlave]
  by_cases h : k' = k
  · subst h; simp [hx]
  · rw [AList.lookup_insert_ne h]

theorem Silent.grows {s : State} (h : Silent s s') : Grows s s' := by
  cases h with
  | emit e he => exact ⟨fun _ h => h, fun _ h => h⟩
  | modifyTask taskId g hg => exact (SameKeys.modifyTask s taskId g).grows
  | modifySlave slaveId g hg => exact (SameKeys.modifySlave s slaveId g).grows
  | delete d k => exact ⟨List.subset_append_left _ _, fun _ h => h⟩
  | retry r => exact ⟨fun _ h => h, fun _ h => h⟩
  | revive =>
    have hslaves : ∀ k, ((resetOffers s.framework).slaves.lookup k).isSome =
        (s.framework.slaves.lookup k).isSome := fun k => by
      simpa using congrArg Option.isSome (account_resetOffers s.framework k)
    have hhas : ∀ de, (resetOffers s.framework).Has de ↔ s.framework.Has de :=
      has_of_lookups (fun _ => rfl) hslaves rfl
    exact ⟨fun _ h => h, fun de => (hhas de).mpr⟩
  | framework f ht hs ho hc hj =>
    exact ⟨fun _ h => h, fun de =>
      (has_of_lookups (fun _ => by rw [ht]) (fun _ => by rw [hs]) ho de).mpr⟩

theorem Quietly.grows {α : Type} {m : Handler α} (h : Quietly m) (s : State) :
    Grows s (m.after s) := by
  refine h.of_steps .refl (fun _ _ _ => .trans) (fun _ _ hstep => ?_) s
  cases hstep with
  | silent h => exact h.grows
  | jobs jobIds => exact ⟨fun _ h => h, fun _ h => h⟩

theorem creditSlave_sameKeys (t : TaskInfo) (s : State) :
    SameKeys s ((creditSlave env k t).after s) := by
  have h := creditSlave_spec env k t s s rfl
  rw [EStateM.after]
  cases hr : creditSlave env k t s with
  | ok a s' =>
    simp only [hr] at h ⊢
    obtain ⟨x, x1, hx, -, -, rfl⟩ := h
    exact SameKeys.trans (.withSlave hx _) ⟨rfl, fun _ => Iff.rfl⟩
  | error e s' =>
    simp only [hr] at h ⊢
    obtain ⟨-, rfl⟩ | ⟨x, x', done, hx, -, -, -, rfl⟩ := h
    · exact ⟨rfl, fun _ => Iff.rfl⟩
    · exact SameKeys.trans (.withSlave hx _) ⟨rfl, fun _ => Iff.rfl⟩

/-! ## `launch_tasks`: the loop over the tasks -/

section Iteration

variable {taskId : String} {s s' : State}

theorem WorksOn.has (h : WorksOn taskId s s') (de : DeleteElement)
    (hde : de ≠ ⟨.tasks, taskId⟩) : s'.framework.Has de ↔ s.framework.Has de := by
  obtain ⟨d, k⟩ := de
  cases d with
  | tasks =>
    have hk : k ≠ taskId := fun hk => hde (by rw [hk])
    show k ∈ s'.framework.tasks ↔ k ∈ s.framework.tasks
    rw [← AList.lookup_isSome, ← AList.lookup_isSome, h.others k hk]
  | slaves =>
    have hmap := congrArg Option.isSome (h.channels k)
    rw [Option.isSome_map, Option.isSome_map] at hmap
    show k ∈ s'.framework.slaves ↔ k ∈ s.framework.slaves
    rw [← AList.lookup_isSome, ← AList.lookup_isSome, hmap]
  | offers =>
    show k ∈ s'.framework.offers ↔ k ∈ s.framework.offers
    rw [h.offers]

theorem WorksOn.grows (h : WorksOn taskId s s') : Grows s s' := by
  refine ⟨fun _ hde => h.pending ▸ hde, fun de hhas => ?_⟩
  by_cases hde : de = ⟨.tasks, taskId⟩
  · subst hde
    exact h.kept hhas
  · exact (h.has de hde).mpr hhas

/-- A state in which a task was worked on is swept if it was and the record of the task was
    not due for deletion. -/
theorem WorksOn.swept_iff (h : WorksOn taskId s s') (hmem : taskId ∈ s'.framework.tasks) :
    Swept s' ↔ Swept s ∧ ⟨.tasks, taskId⟩ ∉ s.deleteElements := by
  constructor
  · intro hs
    refine ⟨h.grows.swept hs, fun hde => ?_⟩
    exact hs ⟨.tasks, taskId⟩ (by rw [h.pending]; exact hde) hmem
  · rintro ⟨hs, hnot⟩ de hde hhas
    rw [h.pending] at hde
    have hne : de ≠ ⟨.tasks, taskId⟩ := fun heq => hnot (heq ▸ hde)
    exact hs de hde ((h.has de hne).mp hhas)

theorem not_swept_lose (hmem : taskId ∈ s.framework.tasks) (slaveId : Option String) :
    ¬Swept (s.lose taskId slaveId) := by
  intro hs
  refine hs ⟨.tasks, taskId⟩ (by simp [State.lose]) ?_
  exact (Framework.mem_modifyTask s.framework taskId taskId _).mpr hmem

end Iteration

/-- What an iteration has to find for nothing to become due for deletion: no deletion of a
    record under the id of the task is queued, and a task of a place-holder keeps its record. -/
def TaskKept (env : Env) (t : TaskInfo) (v : LaunchVars) (s : State) : Prop :=
  ∀ k, t.slave = some k → ⟨.tasks, t.taskId⟩ ∉ s.deleteElements ∧
    (isPlaceholder k = true →
      PlaceholderKept env k v s.framework (s.effects ++ [.stored t.taskId]))

/-- The condition on the iterations of the loop, each read in the state before it. -/
def TasksKept (env : Env) (m : LaunchTasksMessage) : List TaskInfo → LaunchVars → State → Prop
  | [], _, _ => True
  | t :: rest, v, s => TaskKept env t v s ∧
    match launchTask env m t v s with
    | .ok (some v') s' => TasksKept env m rest v' s'
    | _ => True

theorem swept_launchTask (m : LaunchTasksMessage) (t : TaskInfo) (v : LaunchVars) (s : State) :
    Swept ((launchTask env m t v).after s) ↔ Swept s ∧ TaskKept env t v s := by
  have hstage := WorksOn.stage s m t
  have hmem := State.mem_stage s m t
  have hlaunched := launchTask_launched env m t v s
  rw [after_eq_state]
  generalize launchTask env m t v s = r at hlaunched ⊢
  cases hlaunched with
  | unnamed hslave =>
    refine ⟨fun hs => ⟨hs, fun k hk => ?_⟩, fun h => h.1⟩
    rw [hslave] at hk
    cases hk
  | placed hslave hplace h =>
    cases h with
    | lost hnot hworks hlog hvars =>
      refine iff_of_false (not_swept_lose (hworks.kept hmem) _) fun h => hnot ?_
      exact (h.2 _ hslave).2 hplace
    | waits hkept hworks hrecord hjob hvars =>
      rw [Result.state, (hstage.trans hworks).swept_iff (hworks.kept hmem)]
      refine and_congr_right fun _ => ⟨fun hde k hk => ⟨hde, fun _ => ?_⟩, fun h => (h _ hslave).1⟩
      cases hslave.symm.trans hk
      exact hkept
  | started hslave hplace h =>
    -- whatever becomes of a task on a slave, its record stays and nothing is queued
    have hworks := h.worksOn
    rw [(hstage.trans hworks).swept_iff (hworks.kept hmem)]
    refine and_congr_right fun _ => ⟨fun hde k hk => ⟨hde, fun hk' => ?_⟩, fun h => (h _ hslave).1⟩
    cases hslave.symm.trans hk
    rw [hplace] at hk'
    cases hk'

theorem swept_launchLoop (m : LaunchTasksMessage) (ts : List TaskInfo)
    (v : LaunchVars) (s : State) :
    Swept ((launchLoop env m ts v).after s) ↔ Swept s ∧ TasksKept env m ts v s := by
  induction ts generalizing v s with
  | nil => simp only [launchLoop, TasksKept, and_true]; rfl
  | cons t rest ih =>
    have htask := swept_launchTask env m t v s
    rw [launchLoop, after_bind, TasksKept, ← and_assoc, ← htask, after_eq_state]
    cases launchTask env m t v s with
    | error e s' => simp only [Result.state, and_true]
    | ok o s' =>
      cases o with
      | none => simp only [Result.state, and_true]; rfl
      | some v' => exact ih v' s'

/-! ## `launch_tasks`: the offers that no task used -/

/-- What the iteration for an offer that no task used has to find for nothing to become due for
    deletion: the framework filters the offer for a while, and its slave is idle and was not
    refused too often. -/
def OfferKept (maxRejectedOffers : Nat) (refuseSeconds : Option ℚ) (offerId : String)
    (s : State) : Prop :=
  ∀ offer, s.framework.offers.lookup offerId = some offer →
    match s.framework.slaves.lookup offer.slaveId with
    | some x => x.taskCount ≤ 0 ∧ 0 < refuseSeconds.getD 0 ∧ x.refusedCount + 1 ≤ maxRejectedOffers
    | none => isPlaceholder offer.slaveId = true → 0 < refuseSeconds.getD 0

def OffersKept (maxRejectedOffers : Nat) (refuseSeconds : Option ℚ) :
    List String → Option ℚ → State → Prop
  | [], _, _ => True
  | id :: rest, reofferTime, s => OfferKept maxRejectedOffers refuseSeconds id s ∧
    match refuseOffer maxRejectedOffers refuseSeconds id reofferTime s with
    | .ok reofferTime' s' => OffersKept maxRejectedOffers refuseSeconds rest reofferTime' s'
    | .error _ _ => True

theorem not_swept_deleteSlave {slaveId : String} {s : State}
    (hslave : slaveId ∈ s.framework.slaves) : ¬Swept ((deleteSlave slaveId).after s) := by
  have hkeys := SameKeys.modifySlave
    { s with deleteElements := s.deleteElements ++ [⟨.slaves, slaveId⟩] } slaveId
    ({ · with offerable := false })
  refine not_swept_of_queue s ⟨.slaves, slaveId⟩ hslave (hkeys.grows.trans ?_)
  -- what is left of `__delete_slave` is about place-holders
  have hforget : ∀ f : Framework, (f.forgetPlaceholder slaveId).Has = f.Has := by
    intro f
    unfold Framework.forgetPlaceholder
    split <;> rfl
  exact ⟨fun _ h => h, fun de h => (congrFun (hforget _) de).mpr h⟩

/-- An offer without a filter is queued for deletion before its slave may be deleted. -/
theorem refuseSlave_unfiltered (maxRejectedOffers : Nat) {refuseSeconds : Option ℚ}
    (slaveId : String) {x : Slave} (hcount : ¬0 < x.taskCount)
    (hfilter : ¬0 < refuseSeconds.getD 0) (offerId : String) (t : Option ℚ) (s : State) :
    ∃ rest : Handler Unit, Mutely rest ∧
      (refuseSlave maxRejectedOffers refuseSeconds offerId slaveId x t).after s = rest.after
        { (modifyFramework (·.modifySlave slaveId (countRefusal (s.clock + 1)))).after s with
          deleteElements := s.deleteElements ++ [⟨.offers, offerId⟩] } := by
  refine ⟨if maxRejectedOffers < x.refusedCount + 1 then do
      sendSlaveShutdownMessage x.channel
      deleteSlave slaveId
    else pure (), .ite (.bind (Mutely.emit _ rfl) fun _ => Mutely.deleteSlave _) (.pure _), ?_⟩
  simp only [refuseSlave, hcount, hfilter, if_false]
  exact EStateM.after_bind_pure _ _ _

section Refuse

variable {maxRejectedOffers : Nat} {refuseSeconds : Option ℚ} {offerId slaveId : String}
  {s : State} {x : Slave}

/-- An idle slave whose offer is filtered for a while, and that may be refused once more, keeps
    its record and its offer. -/
theorem refuseSlave_sameKeys (hcount : x.taskCount ≤ 0) (hfilter : 0 < refuseSeconds.getD 0)
    (hmax : x.refusedCount + 1 ≤ maxRejectedOffers) (t : Option ℚ) :
    SameKeys s
      ((refuseSlave maxRejectedOffers refuseSeconds offerId slaveId x t).after s) := by
  have hmax' : ¬maxRejectedOffers < x.refusedCount + 1 := by omega
  simp only [refuseSlave, not_lt.mpr hcount, if_false, hfilter, if_true, hmax', after_bind,
    get_apply, modifyFramework, modify_apply, pure_apply]
  exact SameKeys.modifySlave s slaveId _

theorem not_swept_refuseSlave (hoffer : offerId ∈ s.framework.offers)
    (hslave : slaveId ∈ s.framework.slaves)
    (h : ¬(x.taskCount ≤ 0 ∧ 0 < refuseSeconds.getD 0 ∧ x.refusedCount + 1 ≤ maxRejectedOffers))
    (t : Option ℚ) :
    ¬Swept ((refuseSlave maxRejectedOffers refuseSeconds offerId slaveId x t).after s) := by
  by_cases hcount : x.taskCount ≤ 0
  case neg =>
    -- the offer of a slave with tasks is deleted
    have hcount' : 0 < x.taskCount := by omega
    simp only [refuseSlave, hcount', if_true]
    exact not_swept_of_queue s ⟨.offers, offerId⟩ hoffer (SameKeys.modifySlave _ slaveId _).grows
  have hcount' : ¬0 < x.taskCount := by omega
  by_cases hfilter : 0 < refuseSeconds.getD 0
  · -- the framework filters the offer, so the slave was refused too often
    have hmax : maxRejectedOffers < x.refusedCount + 1 := by
      by_contra hmax
      exact h ⟨hcount, hfilter, by omega⟩
    let s1 : State := (modifyFramework
      (·.modifySlave slaveId (countRefusal (s.clock + refuseSeconds.getD 0)))).after s
    have hrun : (refuseSlave maxRejectedOffers refuseSeconds offerId slaveId x t).after s =
        (deleteSlave slaveId).after (s1.log (.slaveShutdown x.channel)) := by
      simp only [refuseSlave, hcount', hfilter, hmax, if_true, if_false]
      rfl
    have hslave1 : slaveId ∈ s1.framework.slaves :=
      ((SameKeys.modifySlave s slaveId _).has ⟨.slaves, slaveId⟩).mpr hslave
    rw [hrun]
    exact not_swept_deleteSlave hslave1
  · obtain ⟨rest, hrest, hrun⟩ :=
      refuseSlave_unfiltered maxRejectedOffers slaveId hcount' hfilter offerId t s
    have hoffer1 := ((SameKeys.modifySlave s slaveId (countRefusal (s.clock + 1))).has
      ⟨.offers, offerId⟩).mpr hoffer
    rw [hrun]
    exact not_swept_of_queue _ ⟨.offers, offerId⟩ hoffer1 (hrest.silently.quietly.grows _)

end Refuse

theorem swept_refuseSlave {s : State} {x : Slave}
    (hoffer : s.framework.offers.lookup offerId = some offer)
    (hx : s.framework.slaves.lookup offer.slaveId = some x) (maxRejectedOffers : Nat)
    (refuseSeconds t : Option ℚ) :
    Swept ((refuseSlave maxRejectedOffers refuseSeconds offerId offer.slaveId x t).after s) ↔
      Swept s ∧ x.taskCount ≤ 0 ∧ 0 < refuseSeconds.getD 0 ∧
        x.refusedCount + 1 ≤ maxRejectedOffers := by
  have hmem : offerId ∈ s.framework.offers := AList.lookup_isSome.mp (by rw [hoffer]; rfl)
  have hslave : offer.slaveId ∈ s.framework.slaves := AList.lookup_isSome.mp (by rw [hx]; rfl)
  by_cases h : x.taskCount ≤ 0 ∧ 0 < refuseSeconds.getD 0 ∧ x.refusedCount + 1 ≤ maxRejectedOffers
  · have hkeys : SameKeys s ((refuseSlave maxRejectedOffers refuseSeconds offerId offer.slaveId x
        t).after s) := refuseSlave_sameKeys h.1 h.2.1 h.2.2 t
    rw [hkeys.swept_iff]
    exact ⟨fun hs => ⟨hs, h⟩, fun hs => hs.1⟩
  · exact iff_of_false (not_swept_refuseSlave hmem hslave h t) fun hs => h hs.2

theorem swept_refusePlaceholder {s : State}
    (hoffer : s.framework.offers.lookup offerId = some offer) (refuseSeconds t : Option ℚ) :
    Swept ((refusePlaceholder refuseSeconds offerId t).after s) ↔
      Swept s ∧ 0 < refuseSeconds.getD 0 := by
  have hmem : offerId ∈ s.framework.offers := AList.lookup_isSome.mp (by rw [hoffer]; rfl)
  simp only [refusePlaceholder, after_bind, get_apply]
  by_cases hfilter : 0 < refuseSeconds.getD 0
  · simp only [hfilter, if_true, and_true]
    exact Iff.rfl
  · simp only [hfilter, if_false, and_false, iff_false]
    exact not_swept_of_queue s ⟨.offers, offerId⟩ hmem (.refl _)

theorem swept_refuseOffer (offerId : String) (t : Option ℚ) (s : State) :
    Swept ((refuseOffer maxRejectedOffers refuseSeconds offerId t).after s) ↔
      Swept s ∧ OfferKept maxRejectedOffers refuseSeconds offerId s := by
  simp only [refuseOffer, OfferKept, after_bind, get_apply]
  cases hoffer : s.framework.offers.lookup offerId with
  | none => simp only [reduceCtorEq, false_imp_iff, implies_true, and_true]; rfl
  | some offer =>
    simp only [Option.some.injEq, forall_eq']
    cases hx : s.framework.slaves.lookup offer.slaveId with
    | some x => exact swept_refuseSlave hoffer hx maxRejectedOffers refuseSeconds t
    | none =>
      cases hplace : isPlaceholder offer.slaveId with
      | true =>
        simp only [if_true, true_imp_iff]
        exact swept_refusePlaceholder hoffer refuseSeconds t
      | false =>
        simp only [Bool.false_eq_true, if_false, false_imp_iff, and_true]
        rfl

theorem swept_refuseOffers (ids : List String) (t : Option ℚ) (s : State) :
    Swept ((refuseOffers maxRejectedOffers refuseSeconds ids t).after s) ↔
      Swept s ∧ OffersKept maxRejectedOffers refuseSeconds ids t s := by
  induction ids generalizing t s with
  | nil => simp only [refuseOffers, OffersKept, and_true]; rfl
  | cons id rest ih =>
    have hoffer := swept_refuseOffer maxRejectedOffers refuseSeconds id t s
    rw [refuseOffers, after_bind, OffersKept, ← and_assoc, ← hoffer,
      after_eq_state]
    cases refuseOffer maxRejectedOffers refuseSeconds id t s with
    | error e s' => simp only [Result.state, and_true]
    | ok t' s' => exact ih t' s'

theorem scheduleOffers_sameKeys : SameKeys s ((scheduleOffers t).after s) := by
  unfold scheduleOffers
  split
  · exact .refl s
  · have hevent : ∀ s1 : State, SameKeys s1 (setOfferEvent.after s1) := by
      intro s1
      simp only [setOfferEvent, after_bind, get_apply]
      split
      · exact ⟨rfl, fun _ => Iff.rfl⟩
      · exact .refl s1
    let s1 : State := { s with framework := { s.framework with nextOfferTime := t.getD 0 + 1 / 4 } }
    have hkeys : SameKeys s s1 := ⟨rfl, fun _ => Iff.rfl⟩
    exact hkeys.trans (hevent s1)

/-- The condition on the offers that no task used. Without `max_rejected_offers` the handler
    raises before it looks at them. -/
def RemainingKept (refuseSeconds : Option ℚ) (ids : List String) (s : State) : Prop :=
  ∀ maxRejectedOffers, s.framework.config.maxRejectedOffers = some maxRejectedOffers →
    OffersKept maxRejectedOffers refuseSeconds ids none s

theorem swept_processRemainingOffers (ids : List String) (s : State) :
    Swept ((processRemainingOffers refuseSeconds ids).after s) ↔
      Swept s ∧ RemainingKept refuseSeconds ids s := by
  simp only [processRemainingOffers, RemainingKept, after_bind, get_apply, orRaise]
  cases hmax : s.framework.config.maxRejectedOffers with
  | none =>
    simp only [throw_apply, reduceCtorEq, false_imp_iff, implies_true, and_true]
  | some maxRejectedOffers =>
    have hrefuse := swept_refuseOffers maxRejectedOffers refuseSeconds ids none s
    simp only [pure_apply, Option.some.injEq, forall_eq', ← hrefuse, after_eq_state]
    cases refuseOffers maxRejectedOffers refuseSeconds ids none s with
    | error e s' => exact Iff.rfl
    | ok t s' =>
      have hkeys := scheduleOffers_sameKeys t s'
      rw [after_eq_state] at hkeys
      exact hkeys.swept_iff

/-- The condition under which `launch_tasks` leaves nothing due for deletion that was not
    before: it is read in the state before each iteration of its two loops. -/
def LaunchKept (env : Env) (m : LaunchTasksMessage) (s : State) : Prop :=
  TasksKept env m m.tasks {} s ∧
    match launchLoop env m m.tasks {} s with
    | .ok (some v) s' => RemainingKept m.refuseSeconds (v.remainingOffers m) s'
    | _ => True

/-- When `launch_tasks` leaves a swept state. -/
theorem swept_launchTasks (entry : Entry) (m : LaunchTasksMessage) {s : State}
    (hactive : s.tracking = .active) :
    Swept ((launchTasks env entry m).after s) ↔ Swept s ∧ LaunchKept env m s.withTaskDict := by
  have hkeys : SameKeys s s.withTaskDict := ⟨rfl, fun _ => Iff.rfl⟩
  have hloop := swept_launchLoop env m m.tasks {} s.withTaskDict
  rw [after_launchTasks env entry m hactive, launchActive, after_bind, LaunchKept,
    ← hkeys.swept_iff, ← and_assoc, ← hloop,
    after_eq_state]
  cases launchLoop env m m.tasks {} s.withTaskDict with
  | error e s' => simp only [Result.state, and_true]
  | ok o s' =>
    cases o with
    | none => simp only [Result.state, and_true]; rfl
    | some v => exact swept_processRemainingOffers m.refuseSeconds (v.remainingOffers m) s'

/-! ## Status updates -/

/-- The release of a task raises before it queues anything: a command executor has no channel,
    or the resources do not go back to the slave. -/
def ReleaseStuck (env : Env) (taskId : String) (x : Slave) (t : TaskInfo) : Prop :=
  if x.isCommandExecutor then ∀ c, x.commandExecutors.lookup taskId = some c → c.channel = none
  else ¬Adjustable env.portAdd x (t.resources.getD [])

section Release

variable {env : Env} {s : State} {k taskId : String} {x : Slave} {t : TaskInfo}

theorem not_swept_releaseTask (hrun : (if x.isCommandExecutor then releaseCommand k taskId x
      else releaseCustom env k t : Handler Unit) s = .ok () s1)
    (hmem : taskId ∈ s1.framework.tasks) : ¬Swept ((releaseTask env k taskId x t).after s) := by
  let s2 : State := (modifyFramework
    (·.modifyTask taskId ({ · with endTime := some s1.clock }))).after s1
  have hafter : (releaseTask env k taskId x t).after s =
      { s2 with deleteElements := s2.deleteElements ++ [⟨.tasks, taskId⟩] } := by
    rw [releaseTask, after_bind, hrun]
    rfl
  have hmem2 : s2.framework.Has ⟨.tasks, taskId⟩ :=
    (Framework.mem_modifyTask s1.framework taskId taskId _).mpr hmem
  rw [hafter]
  exact not_swept_of_queue s2 ⟨.tasks, taskId⟩ hmem2 (.refl _)

theorem swept_releaseCommand (hcommand : x.isCommandExecutor = true)
    (hmem : taskId ∈ s.framework.tasks) :
    Swept ((releaseTask env k taskId x t).after s) ↔
      Swept s ∧ ∀ c, x.commandExecutors.lookup taskId = some c → c.channel = none := by
  have hgrows := (Mutely.releaseCommand k taskId x).silently.quietly.grows s
  rw [after_eq_state] at hgrows
  cases hc : x.commandExecutors.lookup taskId with
  | none =>
    simp only [releaseTask, releaseCommand, hcommand, if_true, after_bind,
      bind_apply,
      hc, orRaise, throw_apply, reduceCtorEq, false_imp_iff, implies_true, and_true]
  | some c =>
    simp only [Option.some.injEq, forall_eq']
    cases hchannel : c.channel with
    | none =>
      simp only [releaseTask, releaseCommand, hcommand, if_true, after_bind,
        bind_apply, hc, hchannel, orRaise, pure_apply,
        throw_apply, and_true]
    | some ch =>
      obtain ⟨s1, hrun⟩ : ∃ s1, releaseCommand k taskId x s = .ok () s1 := by
        simp only [releaseCommand, bind_apply, hc, hchannel, orRaise, pure_apply,
          modifyFramework, modify_apply]
        split
        · exact ⟨_, rfl⟩
        · exact ⟨_, rfl⟩
      rw [hrun] at hgrows
      have hmem1 : taskId ∈ s1.framework.tasks := hgrows.has ⟨.tasks, taskId⟩ hmem
      simp only [reduceCtorEq, and_false, iff_false]
      exact not_swept_releaseTask (by rw [hcommand, if_pos rfl]; exact hrun) hmem1

theorem swept_releaseCustom (hcustom : x.isCommandExecutor = false)
    (hx : s.framework.slaves.lookup k = some x) (hmem : taskId ∈ s.framework.tasks) :
    Swept ((releaseTask env k taskId x t).after s) ↔
      Swept s ∧ ¬Adjustable env.portAdd x (t.resources.getD []) := by
  have hkeys := creditSlave_sameKeys env k t s
  by_cases hadj : Adjustable env.portAdd x (t.resources.getD [])
  · obtain ⟨x1, -, hcredit⟩ := creditSlave_ok hx hadj
    rw [EStateM.after_of_ok hcredit] at hkeys
    obtain ⟨s1, hrun, htasks⟩ : ∃ s1, releaseCustom env k t s = .ok () s1 ∧
        s1.framework.tasks = s.framework.tasks := by
      simp only [releaseCustom, bind_apply, hcredit, get_apply]
      split
      · exact ⟨_, rfl, rfl⟩
      · exact ⟨_, rfl, rfl⟩
    simp only [hadj, not_true_eq_false, and_false, iff_false]
    refine not_swept_releaseTask (by rw [hcustom]; exact hrun) ?_
    rw [htasks]
    exact hmem
  · obtain ⟨e, s1, hcredit, -⟩ := creditSlave_error hx hadj
    rw [EStateM.after_of_error hcredit] at hkeys
    have hafter : (releaseTask env k taskId x t).after s = s1 := by
      simp only [releaseTask, releaseCustom, hcustom, Bool.false_eq_true, if_false,
        after_bind, bind_apply, hcredit]
    rw [hafter, hkeys.swept_iff]
    exact ⟨fun hs => ⟨hs, hadj⟩, fun h => h.1⟩

theorem swept_releaseTask (hx : s.framework.slaves.lookup k = some x)
    (hmem : taskId ∈ s.framework.tasks) :
    Swept ((releaseTask env k taskId x t).after s) ↔ Swept s ∧ ReleaseStuck env taskId x t := by
  cases hcommand : x.isCommandExecutor with
  | true =>
    rw [ReleaseStuck, hcommand, if_pos rfl]
    exact swept_releaseCommand hcommand hmem
  | false =>
    rw [ReleaseStuck, hcommand, if_neg Bool.false_ne_true]
    exact swept_releaseCustom hcommand hx hmem

end Release

/-- The condition under which an update leaves nothing due for deletion: it releases no task. -/
def UpdateKept (env : Env) (u : StatusUpdate) (s : State) : Prop :=
  ∀ task k x, Releases u s task k x → ReleaseStuck env u.taskId x task.taskInfo

theorem Updated.sameKeys {u : StatusUpdate} {s : State} (h : Updated u s s') : SameKeys s s' := by
  have hkeys := SameKeys.modifyTask s u.taskId (recordState u s.clock)
  exact ⟨h.pending, fun de => by rw [h.framework]; exact hkeys.has de⟩

/-- When a status update leaves a swept state. -/
theorem swept_handleStatusUpdate (u : StatusUpdate) (s : State) :
    Swept ((handleStatusUpdate env u).after s) ↔ Swept s ∧ UpdateKept env u s := by
  rcases handleStatusUpdate_cases env u s with ⟨task, k, x, s1, hrel, hu, hrun⟩ | ⟨hnot, hu⟩
  · have hx : s1.framework.slaves.lookup k = some x := by rw [hu.slaves]; exact hrel.slave
    have hmem : u.taskId ∈ s1.framework.tasks :=
      (hu.sameKeys.has ⟨.tasks, u.taskId⟩).mpr (AList.lookup_isSome.mp (by rw [hrel.record]; rfl))
    have hafter : (handleStatusUpdate env u).after s =
        (releaseTask env k u.taskId x task.taskInfo).after s1 := by
      rw [EStateM.after, hrun, EStateM.after]
    rw [hafter, swept_releaseTask hx hmem, hu.sameKeys.swept_iff]
    refine and_congr_right fun _ => ⟨fun hstuck task' k' x' hrel' => ?_, fun h => h task k x hrel⟩
    -- an update names one task and one slave
    cases hrel.record.symm.trans hrel'.record
    cases hrel.names.symm.trans hrel'.names
    cases hrel.slave.symm.trans hrel'.slave
    exact hstuck
  · rw [hu.sameKeys.swept_iff]
    exact ⟨fun hs => ⟨hs, fun task k x hrel => (hnot task k x hrel).elim⟩, fun h => h.1⟩

end Urb
