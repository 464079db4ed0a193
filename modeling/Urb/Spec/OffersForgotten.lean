import Urb.Spec.Assignments
import Urb.Spec.OneOffer
import Urb.Spec.Swept

/-!
# Answered offers are forgotten

An offer stays in the `offers` of its framework until `__process_remaining_offers` queues its
deletion. It does so for the offers of a `LaunchTasks` message that no task used, unless the
framework filters the offer for a while (`refuse_seconds`) or its slave is unknown; the offer that a
task on a running slave used is kept for ever. `Forgets` is the condition on a message under which
all the offers that it names are deleted.
-/

namespace Urb

open EStateM

open Sample (start)

variable {s s' : State} {offer : Offer} {id offerId : String} {e : Event} {ids : List String}

variable (env : Env) (m : LaunchTasksMessage) (maxRejectedOffers : Nat) (refuseSeconds : Option ℚ)

/-! ## What the handlers do to the offers -/

/-- The offers are the same, and those that were due for deletion still are. -/
structure KeepsOffers (s s' : State) : Prop where
  offers : s'.framework.offers = s.framework.offers
  pending : ∀ id, ⟨.offers, id⟩ ∈ s.deleteElements → ⟨.offers, id⟩ ∈ s'.deleteElements

namespace KeepsOffers

theorem refl (s : State) : KeepsOffers s s := ⟨rfl, fun _ => id⟩

theorem trans {s1 s2 s3 : State} (h : KeepsOffers s1 s2) (h' : KeepsOffers s2 s3) :
    KeepsOffers s1 s3 :=
  ⟨h'.offers.trans h.offers, fun id hid => h'.pending id (h.pending id hid)⟩

theorem of_silent (h : Silent s s') : KeepsOffers s s' := by
  cases h with
  | emit e he => exact ⟨rfl, fun _ => id⟩
  | modifyTask taskId g hg =>
    obtain ⟨taskDict, heq⟩ := s.framework.exists_modifyTask taskId g
    exact ⟨by rw [heq], fun _ => id⟩
  | modifySlave slaveId g hg =>
    obtain ⟨slaveDict, heq⟩ := s.framework.exists_modifySlave slaveId g
    exact ⟨by rw [heq], fun _ => id⟩
  | delete d k => exact ⟨rfl, fun _ hid => List.mem_append_left _ hid⟩
  | retry r => exact ⟨rfl, fun _ => id⟩
  | revive => exact ⟨rfl, fun _ => id⟩
  | framework f ht hs ho hc hj => exact ⟨ho, fun _ => id⟩

theorem of_assignment (h : Assignment s s') : KeepsOffers s s' := by
  cases h with
  | quiet h =>
    cases h with
    | silent h => exact of_silent h
    | jobs jobIds => exact ⟨rfl, fun _ => id⟩
  | log e => exact ⟨rfl, fun _ => id⟩
  | slave k x => exact ⟨rfl, fun _ => id⟩
  | store taskId r => exact ⟨rfl, fun _ => id⟩
  | replace entry taskId t =>
    -- only deletions of tasks are forgotten with the dictionary of tasks
    exact ⟨rfl, fun id hid => List.mem_filter.mpr ⟨hid, by simp⟩⟩

end KeepsOffers

theorem Assigns.keepsOffers {α : Type} {m : Handler α} (h : Assigns m) (s : State) :
    KeepsOffers s (m.after s) := by
  have hassigns := h s
  generalize m.after s = s' at hassigns
  induction hassigns with
  | refl => exact .refl s
  | tail _ hstep ih => exact ih.trans (.of_assignment hstep)

theorem Idly.keepsOffers {α : Type} {m : Handler α} (h : Idly m) (s : State) :
    KeepsOffers s (m.after s) := h.silently.jobFreely.assigns.keepsOffers s

/-! ## The loop over the tasks -/

/-- The slaves and the configuration of the framework. -/
def State.fleet (s : State) : Dict Slave × FrameworkConfig :=
  (s.framework.slaves, s.framework.config)

theorem slaves_of_fleet (h : s'.fleet = s.fleet) :
    s'.framework.slaves = s.framework.slaves := congrArg Prod.fst h

theorem config_of_fleet (h : s'.fleet = s.fleet) :
    s'.framework.config = s.framework.config := congrArg Prod.snd h

/-- The task is for no running slave: it answers the offer of a place-holder, or its slave is
    unknown. -/
def TaskInfo.Slaveless (f : Framework) (t : TaskInfo) : Prop :=
  ∃ k, t.slave = some k ∧ (isPlaceholder k = true ∨ k ∉ f.slaves)

theorem launchTask_slaveless {t : TaskInfo} (v : LaunchVars) (h : t.Slaveless s.framework) :
    ∃ v' s', launchTask env m t v s = .ok (some v') s' ∧ v'.usedOffers = v.usedOffers ∧
      s'.fleet = s.fleet := by
  obtain ⟨k, hslave, hk⟩ := h
  rw [launchTask_of_slave hslave]
  cases hplace : isPlaceholder k with
  | true =>
    have hplaced := launchOnPlaceholder_placed env t k v (State.mem_stage s m t)
    simp only [if_true, bind_apply]
    cases hr : launchOnPlaceholder env t k v (s.stage m t) with
    | error e s' => rw [hr] at hplaced; cases hplaced
    | ok v' s' =>
      obtain ⟨hslaves, hconfig, -⟩ := ground_inj ((ground_launchOnPlaceholder env t k v).of_ok hr)
      exact ⟨v', s', rfl, usedOffers_launchOnPlaceholder hr, Prod.ext hslaves hconfig⟩
  | false =>
    have hnone : (s.stage m t).framework.slaves.lookup k = none := by
      rw [hplace] at hk
      exact AList.lookup_eq_none.mpr (hk.resolve_left Bool.false_ne_true)
    refine ⟨v, s.stage m t, ?_, rfl, rfl⟩
    simp only [Bool.false_eq_true, if_false, launchOnSlave, bind_apply, get_apply,
      hnone, pure_apply]

theorem launchLoop_slaveless {ts : List TaskInfo}
    (v : LaunchVars) (h : ∀ t ∈ ts, t.Slaveless s.framework) :
    ∃ v' s', launchLoop env m ts v s = .ok (some v') s' ∧ v'.usedOffers = v.usedOffers ∧
      s'.fleet = s.fleet := by
  induction ts generalizing v s with
  | nil => exact ⟨v, s, rfl, rfl, rfl⟩
  | cons t ts ih =>
    obtain ⟨v1, s1, hrun1, hused1, hkept1⟩ :=
      launchTask_slaveless env m v (h t List.mem_cons_self)
    have hts : ∀ t' ∈ ts, t'.Slaveless s1.framework := by
      intro t' ht'
      obtain ⟨k, hslave, hk⟩ := h t' (List.mem_cons_of_mem _ ht')
      exact ⟨k, hslave, by rw [slaves_of_fleet hkept1]; exact hk⟩
    obtain ⟨v2, s2, hrun2, hused2, hkept2⟩ := ih v1 hts
    refine ⟨v2, s2, ?_, hused2.trans hused1, hkept2.trans hkept1⟩
    simp only [launchLoop, bind_apply, hrun1, hrun2]

/-! ## The offers that no task used -/

/-- A refused offer is deleted if its slave has tasks, or if the framework does not filter it and
    its slave is known or a place-holder. -/
def Offer.Dropped (f : Framework) (refuseSeconds : Option ℚ) (offer : Offer) : Prop :=
  match f.slaves.lookup offer.slaveId with
  | some x => 0 < x.taskCount ∨ refuseSeconds.getD 0 ≤ 0
  | none => isPlaceholder offer.slaveId = true ∧ refuseSeconds.getD 0 ≤ 0

theorem Offer.Dropped.of_mem {f : Framework} {refuseSeconds : Option ℚ}
    (hmem : offer.slaveId ∈ f.slaves) (hfilter : refuseSeconds.getD 0 ≤ 0) :
    offer.Dropped f refuseSeconds := by
  obtain ⟨x, hx⟩ := Option.isSome_iff_exists.mp (AList.lookup_isSome.mpr hmem)
  unfold Offer.Dropped
  rw [hx]
  exact Or.inr hfilter

theorem Offer.Dropped.sameBooks {refuseSeconds : Option ℚ}
    (hbooks : SameBooks s s') (h : offer.Dropped s.framework refuseSeconds) :
    offer.Dropped s'.framework refuseSeconds := by
  have haccount := hbooks.accounts offer.slaveId
  unfold Offer.Dropped at h ⊢
  cases hx : s.framework.slaves.lookup offer.slaveId with
  | none =>
    rw [hx] at h haccount
    rw [Option.map_eq_none_iff.mp haccount]
    exact h
  | some x =>
    rw [hx] at h haccount
    obtain ⟨y, hy, hxy⟩ := Option.map_eq_some_iff.mp haccount
    rw [hy]
    show 0 < y.taskCount ∨ _
    rw [taskCount_eq_of_account hxy]
    exact h

theorem refuseSlave_drops {maxRejectedOffers : Nat} {refuseSeconds : Option ℚ}
    {slaveId : String} {x : Slave} (h : 0 < x.taskCount ∨ refuseSeconds.getD 0 ≤ 0)
    (t : Option ℚ) (s : State) :
    ⟨.offers, offerId⟩ ∈
      ((refuseSlave maxRejectedOffers refuseSeconds offerId slaveId x t).after
        s).deleteElements := by
  by_cases hcount : 0 < x.taskCount
  · simp only [refuseSlave, hcount, if_true]
    exact List.mem_append_right _ List.mem_cons_self
  · have hfilter : ¬0 < refuseSeconds.getD 0 := not_lt.mpr (h.resolve_left hcount)
    obtain ⟨rest, hrest, hrun⟩ :=
      refuseSlave_unfiltered maxRejectedOffers slaveId hcount hfilter offerId t s
    rw [hrun]
    exact (hrest.idly.keepsOffers _).pending _ (List.mem_append_right _ List.mem_cons_self)

theorem refuseOffer_drops {refuseSeconds : Option ℚ}
    (hoffer : s.framework.offers.lookup offerId = some offer)
    (h : offer.Dropped s.framework refuseSeconds) (t : Option ℚ) :
    ⟨.offers, offerId⟩ ∈
      ((refuseOffer maxRejectedOffers refuseSeconds offerId t).after s).deleteElements := by
  simp only [refuseOffer, after_bind, get_apply, hoffer]
  unfold Offer.Dropped at h
  cases hx : s.framework.slaves.lookup offer.slaveId with
  | some x =>
    rw [hx] at h
    exact refuseSlave_drops h t s
  | none =>
    rw [hx] at h
    obtain ⟨hplace, hfilter⟩ := h
    simp only [hplace, if_true, refusePlaceholder, not_lt.mpr hfilter, if_false]
    exact List.mem_append_right _ List.mem_cons_self

theorem refuseSlave_returns (offerId slaveId : String) (x : Slave) (t : Option ℚ) (s : State) :
    ∃ t' s', refuseSlave maxRejectedOffers refuseSeconds offerId slaveId x t s = .ok t' s' := by
  by_cases hcount : 0 < x.taskCount
  · simp only [refuseSlave, hcount, if_true]
    exact ⟨_, _, rfl⟩
  · simp only [refuseSlave, hcount, if_false]
    by_cases hfilter : 0 < refuseSeconds.getD 0
    · by_cases hmax : maxRejectedOffers < x.refusedCount + 1
      · simp only [hfilter, hmax, if_true]
        exact ⟨_, _, rfl⟩
      · simp only [hfilter, hmax, if_true, if_false]
        exact ⟨_, _, rfl⟩
    · by_cases hmax : maxRejectedOffers < x.refusedCount + 1
      · simp only [hfilter, hmax, if_true, if_false]
        exact ⟨_, _, rfl⟩
      · simp only [hfilter, hmax, if_false]
        exact ⟨_, _, rfl⟩

theorem refuseOffer_returns (offerId : String) (t : Option ℚ) (s : State) :
    ∃ t' s', refuseOffer maxRejectedOffers refuseSeconds offerId t s = .ok t' s' := by
  simp only [refuseOffer, bind_apply, get_apply]
  cases s.framework.offers.lookup offerId with
  | none => exact ⟨_, _, rfl⟩
  | some offer =>
    dsimp only
    cases s.framework.slaves.lookup offer.slaveId with
    | some x => exact refuseSlave_returns _ _ _ _ _ _ _
    | none =>
      cases isPlaceholder offer.slaveId with
      | false => exact ⟨_, _, rfl⟩
      | true =>
        by_cases hfilter : 0 < refuseSeconds.getD 0
        · simp only [hfilter, if_true, refusePlaceholder]
          exact ⟨_, _, rfl⟩
        · simp only [hfilter, if_true, if_false, refusePlaceholder]
          exact ⟨_, _, rfl⟩

theorem refuseOffers_drops
    (t : Option ℚ) (h : ∀ id ∈ ids, ∀ offer, s.framework.offers.lookup id = some offer →
      offer.Dropped s.framework refuseSeconds) :
    ∃ t' s', refuseOffers maxRejectedOffers refuseSeconds ids t s = .ok t' s' ∧
      KeepsOffers s s' ∧
      ∀ id ∈ ids, id ∈ s.framework.offers → ⟨.offers, id⟩ ∈ s'.deleteElements := by
  induction ids generalizing t s with
  | nil => exact ⟨t, s, rfl, .refl s, nofun⟩
  | cons id ids ih =>
    obtain ⟨t1, s1, hrun1⟩ := refuseOffer_returns maxRejectedOffers refuseSeconds id t s
    have hidly := (Refusing.refuseOffer maxRejectedOffers refuseSeconds id t).idly
    have hkeeps := hidly.keepsOffers s
    have hbooks := hidly.silently.quietly.sameBooks s
    have hdrop := fun offer hoffer => refuseOffer_drops maxRejectedOffers hoffer
      (h id List.mem_cons_self offer hoffer) t
    rw [after_of_ok hrun1] at hkeeps hbooks hdrop
    obtain ⟨t2, s2, hrun2, hkeeps2, hdrop2⟩ := ih t1 (s := s1) fun id' hid' offer hoffer =>
      (h id' (List.mem_cons_of_mem _ hid') offer (hkeeps.offers ▸ hoffer)).sameBooks hbooks
    refine ⟨t2, s2, ?_, hkeeps.trans hkeeps2, ?_⟩
    · simp only [refuseOffers, bind_apply, hrun1, hrun2]
    · intro id' hid' hmem
      cases List.mem_cons.mp hid' with
      | inl heq =>
        obtain ⟨offer, hoffer⟩ := Option.isSome_iff_exists.mp (AList.lookup_isSome.mpr (heq ▸ hmem))
        exact heq ▸ hkeeps2.pending id (hdrop offer hoffer)
      | inr hid' => exact hdrop2 id' hid' (by rw [hkeeps.offers]; exact hmem)

/-! ## The whole call -/

/-- A message after which none of the offers that it names is left: no task runs on a slave, and
    all of the offers are dropped. -/
structure Forgets (s : State) (m : LaunchTasksMessage) : Prop where
  active : s.tracking = .active
  limited : s.framework.config.maxRejectedOffers.isSome = true
  tasks : ∀ t ∈ m.tasks, t.Slaveless s.framework
  offers : ∀ id ∈ m.offerIds, ∀ offer, s.framework.offers.lookup id = some offer →
    offer.Dropped s.framework m.refuseSeconds

theorem launchLoop_remaining (h : ∀ t ∈ m.tasks, t.Slaveless s.framework) :
    ∃ v s', launchLoop env m m.tasks {} s.withTaskDict = .ok (some v) s' ∧
      (∀ id, id ∈ v.remainingOffers m ↔ id ∈ m.offerIds) ∧ s'.fleet = s.fleet ∧
        KeepsOffers s s' := by
  obtain ⟨v, s', hrun, hused, hkept⟩ := launchLoop_slaveless env m (s := s.withTaskDict) {} h
  have hkeeps := (Assigns.launchLoop env m m.tasks {}).keepsOffers s.withTaskDict
  rw [after_of_ok hrun] at hkeeps
  refine ⟨v, s', hrun, fun id => ?_, hkept, ⟨hkeeps.offers, hkeeps.pending⟩⟩
  rw [LaunchVars.remainingOffers, hused]
  simp

/-- The offers of such a message are due for deletion. -/
theorem launchTasks_forgets (entry : Entry) {m : LaunchTasksMessage}
    (h : Forgets s m) (hid : id ∈ m.offerIds) (hmem : id ∈ s.framework.offers) :
    ⟨.offers, id⟩ ∈ ((launchTasks env entry m).after s).deleteElements := by
  obtain ⟨v, s1, hrun, hremaining, hkept, hkeeps⟩ := launchLoop_remaining env m h.tasks
  obtain ⟨maxRejectedOffers, hmax⟩ := Option.isSome_iff_exists.mp h.limited
  rw [← config_of_fleet hkept] at hmax
  have hdropped : ∀ id ∈ v.remainingOffers m, ∀ offer, s1.framework.offers.lookup id = some offer →
      offer.Dropped s1.framework m.refuseSeconds := by
    intro id hid offer hoffer
    rw [hkeeps.offers] at hoffer
    have hdropped := h.offers id ((hremaining id).mp hid) offer hoffer
    unfold Offer.Dropped
    rw [slaves_of_fleet hkept]
    exact hdropped
  obtain ⟨t, s2, hrefuse, hkeeps2, hdue⟩ :=
    refuseOffers_drops maxRejectedOffers m.refuseSeconds none
    hdropped
  have hschedule := (Mutely.scheduleOffers t).idly.keepsOffers s2
  have hafter : (launchTasks env entry m).after s = (scheduleOffers t).after s2 := by
    rw [after_launchTasks env entry m h.active]
    simp only [launchActive, after_bind, hrun, processRemainingOffers, get_apply,
      hmax, orRaise, pure_apply, hrefuse]
  rw [hafter]
  apply hschedule.pending
  apply hdue id ((hremaining id).mpr hid)
  rw [hkeeps.offers]
  exact hmem

theorem refuseOffers_unknown (t : Option ℚ) (h : ∀ id ∈ ids, id ∉ s.framework.offers) :
    refuseOffers maxRejectedOffers refuseSeconds ids t s = .ok t s := by
  induction ids with
  | nil => rfl
  | cons id ids ih =>
    have hnone := AList.lookup_eq_none.mpr (h id List.mem_cons_self)
    simp only [refuseOffers, refuseOffer, bind_apply, get_apply, hnone,
      pure_apply]
    exact ih fun id hid => h id (List.mem_cons_of_mem _ hid)

theorem launchTasks_unknown (entry : Entry) {m : LaunchTasksMessage}
    (htasks : ∀ t ∈ m.tasks, t.Slaveless s.framework)
    (hoffers : ∀ id ∈ m.offerIds, id ∉ s.framework.offers) :
    ((launchTasks env entry m).after s).framework.slaves = s.framework.slaves := by
  by_cases hactive : s.tracking = .active
  · obtain ⟨v, s1, hrun, hremaining, hkept, hkeeps⟩ := launchLoop_remaining env m htasks
    have hunknown : ∀ id ∈ v.remainingOffers m, id ∉ s1.framework.offers := by
      intro id hid
      rw [hkeeps.offers]
      exact hoffers id ((hremaining id).mp hid)
    rw [after_launchTasks env entry m hactive]
    simp only [launchActive, after_bind, hrun, processRemainingOffers, get_apply]
    cases s1.framework.config.maxRejectedOffers with
    | none => exact slaves_of_fleet hkept
    | some maxRejectedOffers =>
      simp only [orRaise, pure_apply, refuseOffers_unknown _ _ _ hunknown]
      exact slaves_of_fleet hkept
  · simp only [launchTasks, after_bind, get_apply, hactive, if_false]
    cases entry with
    | queue => rfl
    | http => rfl

/-! ## Runs -/

theorem mem_offers_postprocessor : id ∈ (targetPostprocessor s).framework.offers ↔
      ⟨.offers, id⟩ ∉ s.deleteElements ∧ id ∈ s.framework.offers := by
  have hlookup := lookup_offers_deleteAll s.deleteElements s.framework id
  rw [← AList.lookup_isSome, ← AList.lookup_isSome, targetPostprocessor, hlookup]
  split
  · simp_all
  · simp_all

/-- The offers that an event of the service answers. -/
def OfferEvent.answers : OfferEvent → List String
  | .generate _ _ => []
  | .event e => e.answers

theorem Event.mem_answers (h : id ∈ e.answers) :
    ∃ entry m, e.request = some (entry, .launchTasks m) ∧ id ∈ m.offerIds := by
  unfold Event.answers at h
  split at h
  · exact ⟨_, _, rfl, h⟩
  · exact ⟨_, _, rfl, h⟩
  · exact ⟨_, _, rfl, h⟩
  · cases h

theorem OfferPass.mem_offers_generate (now : ℚ) (initialTasks : Nat) (p : OfferPass) :
    ∀ id ∈ (generateOffersForFramework now initialTasks p).framework.offers,
      id ∈ p.framework.offers ∨
        ∃ offer ∈ (generateOffersForFramework now initialTasks p).offers, offer.id = id := by
  apply pass_induction (P := fun p' : OfferPass => ∀ id ∈ p'.framework.offers,
    id ∈ p.framework.offers ∨ ∃ offer ∈ p'.offers, offer.id = id)
  case hsave =>
    intro p' offer ih id hid
    cases (AList.mem_insert _).mp hid with
    | inl heq => exact Or.inr ⟨offer, List.mem_append_right _ List.mem_cons_self, heq.symm⟩
    | inr hid =>
      cases ih id hid with
      | inl hold => exact Or.inl hold
      | inr hnew =>
        obtain ⟨offer', hoffer', heq⟩ := hnew
        exact Or.inr ⟨offer', List.mem_append_left _ hoffer', heq⟩
  case hslave =>
    intro p' k g ih id hid
    obtain ⟨slaveDict, heq⟩ := p'.framework.exists_modifySlave k g
    apply ih id
    rw [heq] at hid
    exact hid
  case hafter => exact fun _ _ h => h
  case hplaceholder => exact fun _ _ h => h
  case h => exact fun id hid => Or.inl hid

namespace OfferService

variable {env : Env} {o : OfferService}

/-- Every offer that the framework remembers is unanswered or due for deletion. -/
def Forgetful (o : OfferService) : Prop :=
  ∀ id ∈ o.state.framework.offers,
    (∃ made ∈ o.unanswered, made.id = id) ∨ ⟨.offers, id⟩ ∈ o.state.deleteElements

/-- The condition on an event: a `LaunchTasks` message forgets the offers that it names. -/
def Dismisses (o : OfferService) : OfferEvent → Prop
  | .generate _ _ => True
  | .event e => ∀ entry m, e.request = some (entry, .launchTasks m) → Forgets o.state m

namespace Forgetful

theorem generate (h : o.Forgetful) (initialTasks : Nat) (sent : Bool) :
    (o.generate initialTasks sent).Forgetful := by
  intro id hid
  cases OfferPass.mem_offers_generate _ _ _ id hid with
  | inl hold =>
    cases h id hold with
    | inl hmade =>
      obtain ⟨made, hmade, heq⟩ := hmade
      exact Or.inl ⟨made, List.mem_append_left _ hmade, heq⟩
    | inr hdue => exact Or.inr hdue
  | inr hnew =>
    obtain ⟨offer, hoffer, heq⟩ := hnew
    exact Or.inl ⟨⟨offer, sent⟩, List.mem_append_right _ (List.mem_map_of_mem hoffer), heq⟩

theorem keeps (h : o.Forgetful) (hkeeps : KeepsOffers o.state s') {answers : List String}
    (hanswers : ∀ id ∈ answers, id ∈ o.state.framework.offers → ⟨.offers, id⟩ ∈ s'.deleteElements) :
    Forgetful { o with state := s', unanswered := o.unanswered.filter (·.id ∉ answers) } := by
  intro id hid
  have hold : id ∈ o.state.framework.offers := by
    rw [← hkeeps.offers]
    exact hid
  by_cases hanswer : id ∈ answers
  · exact Or.inr (hanswers id hanswer hold)
  · cases h id hold with
    | inl hmade =>
      obtain ⟨made, hmade, heq⟩ := hmade
      exact Or.inl ⟨made, List.mem_filter.mpr ⟨hmade, by simpa [heq] using hanswer⟩, heq⟩
    | inr hdue => exact Or.inr (hkeeps.pending id hdue)

theorem unanswered (h : o.Forgetful) :
    ∀ id ∈ (targetPostprocessor o.state).framework.offers, ∃ made ∈ o.unanswered, made.id = id := by
  intro id hid
  obtain ⟨hdue, hold⟩ := mem_offers_postprocessor.mp hid
  exact (h id hold).resolve_right hdue

theorem postprocessor (h : o.Forgetful) :
    Forgetful { o with state := targetPostprocessor o.state } :=
  fun id hid => Or.inl (h.unanswered id hid)

theorem handle (h : o.Forgetful) (he : o.Dismisses (.event e)) {entry : Entry}
    {r : Request} (hrequest : e.request = some (entry, r)) :
    Forgetful { o with
      state := (handle env entry r).after o.state
      unanswered := o.unanswered.filter (·.id ∉ e.answers) } := by
  apply h.keeps ((handle_assigns env entry r).keepsOffers o.state)
  intro id hid hmem
  obtain ⟨entry', m, hrequest', hid⟩ := Event.mem_answers hid
  have hforgets := he entry' m hrequest'
  rw [hrequest] at hrequest'
  cases hrequest'
  exact launchTasks_forgets env entry hforgets hid hmem

theorem event (h : o.Forgetful) (he : o.Dismisses (.event e)) :
    (o.step env (.event e)).Forgetful := by
  cases e with
  | queued r => exact (h.handle he rfl).postprocessor
  | http c =>
    cases c with
    | revive => exact h.keeps (.refl _) nofun
    | acceptLaunch offerIds refuseSeconds tasks => exact (h.handle he rfl :)
    | decline offerIds refuseSeconds => exact (h.handle he rfl :)
    | kill taskId => exact (h.handle he rfl :)
    | reconcile tasks => exact (h.handle he rfl :)
    | updateExecutor u => exact (h.handle he rfl :)
    | subscribeExecutor executorId => exact (h.handle he rfl :)
  | deleteJob jobId =>
    exact h.keeps ((Quietly.deleteJob jobId).assigns.keepsOffers _) fun _ hid =>
      absurd hid List.not_mem_nil
  | postprocessed =>
    exact (h.keeps (.refl _) fun _ hid => absurd hid List.not_mem_nil).postprocessor
  | clock now => exact h.keeps ⟨rfl, fun _ => id⟩ nofun

theorem step (h : o.Forgetful) {e : OfferEvent} (he : o.Dismisses e) :
    (o.step env e).Forgetful := by
  cases e with
  | generate initialTasks sent =>
    by_cases hactive : o.state.tracking = .active
    · rw [OfferService.step, if_pos hactive]
      exact h.generate initialTasks sent
    · rw [OfferService.step, if_neg hactive]
      exact h
  | event e => exact h.event he

end Forgetful

/-- In a run in which every `LaunchTasks` message forgets its offers, none of the offers that a
    message names is left once its deletions were carried out. The framework then remembers
    unanswered offers only, of which there are at least as many, and a message that answers offers
    again, without tasks for slaves, changes no slave. -/
theorem answered_offers_forgotten (env : Env) (o : OfferService)
    (hstart : o.state.framework.offers = ∅) (events : List OfferEvent)
    (h : Run.Meets (step env) Dismisses o events) :
    Run.Meets (step env) (fun o e => ∀ id ∈ e.answers,
      id ∉ (targetPostprocessor (o.step env e).state).framework.offers) o events ∧
    let o' := events.foldl (step env) o
    let s' := targetPostprocessor o'.state
    (∀ id ∈ s'.framework.offers, ∃ made ∈ o'.unanswered, made.id = id) ∧
    s'.framework.offers.keys.length ≤ o'.unanswered.length ∧
    ∀ entry m, (∀ t ∈ m.tasks, t.Slaveless s'.framework) →
      (∀ id ∈ m.offerIds, ∀ made ∈ o'.unanswered, made.id ≠ id) →
      ((launchTasks env entry m).after s').framework.slaves = s'.framework.slaves := by
  have hforgetful : o.Forgetful := by
    intro id hid
    rw [hstart] at hid
    exact absurd hid (AList.notMem_empty id)
  have hstep : ∀ o e, Forgetful o → Dismisses o e → Forgetful (step env o e) :=
    fun o e ho he => ho.step he
  constructor
  · refine Run.meets_of_invariant (fun o e ho he => ⟨hstep o e ho he, ?_⟩) hforgetful h
    intro id hid hmem
    obtain ⟨made, hmade, heq⟩ := (hstep o e ho he).unanswered id hmem
    cases e with
    | generate initialTasks sent => exact List.not_mem_nil hid
    | event e =>
      -- the offers that are answered are no longer unanswered
      have hkept := of_decide_eq_true (List.mem_filter.mp hmade).2
      exact hkept (heq ▸ hid)
  · have hunanswered := (Run.invariant hstep hforgetful h).unanswered
    generalize events.foldl (step env) o = o' at hunanswered
    refine ⟨hunanswered, ?_, ?_⟩
    · have hsubset : (targetPostprocessor o'.state).framework.offers.keys ⊆
          o'.unanswered.map (·.id) := by
        intro id hid
        obtain ⟨made, hmade, heq⟩ := hunanswered id hid
        exact List.mem_map.mpr ⟨made, hmade, heq⟩
      have hle := ((AList.keys_nodup _).subperm hsubset).length_le
      rwa [List.length_map] at hle
    · intro entry m htasks hanswered
      apply launchTasks_unknown env entry htasks
      intro id hid hmem
      obtain ⟨made, hmade, heq⟩ := hunanswered id hmem
      exact hanswered id hid made hmade heq

/-- The framework declines the offer and filters it for five seconds. -/
def filtered : List OfferEvent :=
  offered ++ [.event (.queued (.launchTasks
    { offerIds := ["offer-framework-1"], refuseSeconds := some 5 }))]

/-- The framework accepts the offer with a task for the slave. -/
def accepted : List OfferEvent :=
  offered ++ [.event (.queued (.launchTasks
    { offerIds := ["offer-framework-1"], tasks := [Sample.task "t"] }))]

theorem answered_offers_forgotten_declined :
    let o := declined.foldl (step Sample.env) { state := start }
    (targetPostprocessor o.state).framework.offers.keys = ["offer-framework-2"] ∧
      (targetPostprocessor o.state).framework.offers.keys.length ≤ o.unanswered.length := by
  refine ⟨by decide +kernel,
    (answered_offers_forgotten Sample.env { state := start } rfl declined ?_).2.2.1⟩
  refine ⟨?_, ?_, trivial, ?_, ?_, trivial, trivial⟩
  · intro entry m hrequest
    cases hrequest
  · intro entry m hrequest
    cases hrequest
  · intro entry m hrequest
    cases hrequest
    show Forgets (offered.foldl (step Sample.env) { state := start }).state _
    have hactive : (offered.foldl (step Sample.env) { state := start }).state.tracking =
        .active ∧ (offered.foldl (step Sample.env)
          { state := start }).state.framework.config.maxRejectedOffers.isSome = true := by
      decide +kernel
    have hoffer : ∀ offer ∈ (offered.foldl (step Sample.env)
        { state := start }).state.framework.offers.lookup "offer-framework-1",
        offer.slaveId ∈ (offered.foldl (step Sample.env)
          { state := start }).state.framework.slaves := by decide +kernel
    generalize (offered.foldl (step Sample.env) { state := start }).state = s
      at hactive hoffer
    refine ⟨hactive.1, hactive.2, nofun, ?_⟩
    intro id hid offer hlookup
    cases List.mem_singleton.mp hid
    exact .of_mem (hoffer offer hlookup) le_rfl
  · intro entry m hrequest
    cases hrequest

/-- Neither an offer that the framework filters nor an offer that a task used is forgotten, though
    no offer is unanswered, and answering it again counts as another refusal. -/
theorem offers_kept :
    let o := filtered.foldl (step Sample.env) { state := start }
    let o' := accepted.foldl (step Sample.env) { state := start }
    (o.state.framework.offers.keys = ["offer-framework-1"] ∧ o.unanswered = [] ∧
      (o.state.framework.slaves.lookup Sample.slaveId).map (·.refusedCount) = some 1 ∧
      ((handleQueued Sample.env (.launchTasks { offerIds := ["offer-framework-1"] })
        o.state).framework.slaves.lookup Sample.slaveId).map (·.refusedCount) = some 2) ∧
    o'.state.framework.offers.keys = ["offer-framework-1"] ∧ o'.unanswered = [] := by
  decide +kernel

end OfferService

end Urb
