import Mathlib.Data.Rat.Floor
import Urb.ForStd.Run
import Urb.Spec.Postprocess
import Urb.Spec.Spared

/-!
# One outstanding offer per slave

A slave that was offered is not offerable, so that no second offer is made for it. This holds as
long as no step touches a slave while an offer for it is outstanding. Nothing in the code sees to
that: `revive_offers` makes all slaves offerable, a `LaunchTasks` message may have a task for a
slave whose offer it does not name, or may answer an old offer again, and a runner or an executor
may register while an offer is out.

What was promised stays there as well, since the amounts of a slave only grow in the meantime. Its
ports need a condition of their own: a credit adds the ports of a task to them, and loses some of
them where `PortRangeUtility.add` does.

## Key results

- `OfferService.one_offer_per_slave`: in every run of orderly steps at most one offer is out for a
  slave, which has what was promised
-/

namespace Urb

open List (mem_filter mem_map mem_singleton)
open Sample (slaveId)

variable {kept : Prop} {before : List MadeOffer} {e : Sigma fun _ : String => Slave} {k : String} {m : MadeOffer}
    {x : Slave}

/-! ## What an offer promises -/

theorem toInt_eq_floor {q : ℚ} (hq : 0 ≤ q) : toInt q = ⌊q⌋ := by
  rw [toInt, Int.tdiv_eq_ediv_of_nonneg (Rat.num_nonneg.mpr hq), Rat.floor_def']

theorem toInt_le {q : ℚ} (hq : 0 ≤ q) : (toInt q : ℚ) ≤ q := by
  rw [toInt_eq_floor hq]
  exact Int.floor_le q

/-- The slave has no negative amounts. -/
structure Slave.NonNegative (x : Slave) : Prop where
  cpus : 0 ≤ x.cpus
  mem : 0 ≤ x.mem
  disk : 0 ≤ x.disk
  gpus : ∀ g, x.gpus = some g → 0 ≤ g

theorem Slave.NonNegative.of_entries {d : Dict Slave} (h : ∀ e ∈ d.entries, 0 ≤ e.2.cpus ∧
    0 ≤ e.2.mem ∧ 0 ≤ e.2.disk ∧ 0 ≤ e.2.gpus.getD 0)
    (hx : d.lookup k = some x) : x.NonNegative := by
  obtain ⟨hcpus, hmem, hdisk, hgpus⟩ := h ⟨k, x⟩ (AList.mem_lookup_iff.mp hx)
  refine ⟨hcpus, hmem, hdisk, fun g hg => ?_⟩
  rw [hg] at hgpus
  exact hgpus

theorem covers_buildResources (hx : x.NonNegative) : ∀ r ∈ buildResources x, x.Covers r := by
  intro r hr
  simp only [buildResources, List.mem_append, List.mem_cons, List.not_mem_nil, or_false,
    mem_map] at hr
  rcases hr with (((rfl | rfl | rfl | rfl) | hgpus) | ⟨e, he, rfl⟩)
  · exact ⟨_, .cpus, rfl, toInt_le hx.cpus, fun _ h => h⟩
  · exact ⟨_, .mem, rfl, toInt_le hx.mem, fun _ h => h⟩
  · exact ⟨_, .disk, rfl, toInt_le hx.disk, fun _ h => h⟩
  · exact ⟨_, .ports, .refl _⟩
  · cases hg : x.gpus with
    | none =>
      rw [hg] at hgpus
      cases hgpus
    | some g =>
      rw [hg] at hgpus
      dsimp only at hgpus
      split at hgpus
      · cases hgpus
      · obtain rfl := mem_singleton.mp hgpus
        exact ⟨_, .gpus g hg, rfl, toInt_le (hx.gpus g hg), fun _ h => h⟩
  · exact ⟨_, .custom e.1 e.2 (AList.mem_lookup_iff.mpr he), .refl _⟩

/-- Offers that are out, and that are for a slave and not for a place-holder. -/
def MadeOffer.real (m : MadeOffer) : Bool := m.sent && !isPlaceholder m.slaveId

/-- The slaves of the offers that are out are not offerable and, provided that they kept their
    ports, have what was promised, and no two offers are for one slave. -/
structure Promised (kept : Prop) (slaves : Dict Slave) (made : List MadeOffer) : Prop where
  shut : ∀ m ∈ made, m.real = true → ∀ x, slaves.lookup m.slaveId = some x →
    x.offerable = false ∧ (kept → ∀ r ∈ m.resources, x.Covers r)
  distinct : ((made.filter (·.real)).map (·.slaveId)).Nodup

theorem isPlaceholder_append {a : String} (h : isPlaceholder a = true) (b : String) :
    isPlaceholder (a ++ b) = true := by
  unfold isPlaceholder at h ⊢
  rw [List.isPrefixOf_iff_prefix] at h ⊢
  rw [String.toList_append]
  exact h.trans (List.prefix_append _ _)

/-- The slave has in the second state the ports that it has in the first. -/
def State.KeepsPorts (s s' : State) (slaveId : String) : Prop :=
  ∀ x x', s.framework.slaves.lookup slaveId = some x →
    s'.framework.slaves.lookup slaveId = some x' → x.KeepsPorts x'

theorem SameBooks.keepsPorts {s s' : State} (h : SameBooks s s') (slaveId : String) :
    s.KeepsPorts s' slaveId := by
  intro x x' hx hx' port hport
  have haccount := h.accounts slaveId
  rw [hx, hx'] at haccount
  simp only [Option.map_some, Option.some.injEq, Slave.account, Prod.mk.injEq] at haccount
  rwa [haccount.2.2.2.2.1]

namespace Promised

variable {slaves slaves' : Dict Slave} {made : List MadeOffer}

theorem concat_of_not_real (h : Promised kept slaves made) (hm : m.real = false) :
    Promised kept slaves (made ++ [m]) where
  shut m' hm' hreal := by
    rcases List.mem_append.mp hm' with hm' | hm'
    · exact h.shut m' hm' hreal
    · rw [mem_singleton.mp hm', hm] at hreal
      cases hreal
  distinct := by
    rw [List.filter_append, List.filter_singleton, hm]
    simpa using h.distinct

theorem concat (h : Promised kept slaves made) {x' : Slave}
    (hx : slaves.lookup m.slaveId = some x) (hoffer : x.offerable = true)
    (hx' : slaves'.lookup m.slaveId = some x')
    (hothers : ∀ k, k ≠ m.slaveId → slaves'.lookup k = slaves.lookup k)
    (hshut : x'.offerable = false) (hcovers : ∀ r ∈ m.resources, x'.Covers r) :
    Promised kept slaves' (made ++ [m]) := by
  -- no offer for the slave is out, or it would not be offerable
  have hnew : ∀ m' ∈ made, m'.real = true → m'.slaveId ≠ m.slaveId := by
    intro m' hm' hreal heq
    have hfalse := (h.shut m' hm' hreal x (heq ▸ hx)).1
    rw [hoffer] at hfalse
    cases hfalse
  constructor
  · intro m' hm' hreal y hy
    rcases List.mem_append.mp hm' with hm' | hm'
    · rw [hothers _ (hnew m' hm' hreal)] at hy
      exact h.shut m' hm' hreal y hy
    · obtain rfl := mem_singleton.mp hm'
      rw [hx'] at hy
      cases hy
      exact ⟨hshut, fun _ => hcovers⟩
  · rw [List.filter_append, List.map_append, List.nodup_append]
    refine ⟨h.distinct, ?_, ?_⟩
    · rw [List.filter_singleton]
      cases m.real with
      | true => exact List.nodup_singleton _
      | false => exact List.nodup_nil
    · intro a ha b hb heq
      obtain ⟨m', hm', rfl⟩ := mem_map.mp ha
      obtain ⟨m'', hm'', rfl⟩ := mem_map.mp hb
      obtain ⟨hmem, hreal⟩ := mem_filter.mp hm'
      rw [mem_singleton.mp (mem_filter.mp hm'').1] at heq
      exact hnew m' hmem hreal heq

theorem filter (h : Promised kept slaves made)
    (keep : MadeOffer → Bool) : Promised kept slaves (made.filter keep) where
  shut m hm := h.shut m (mem_filter.mp hm).1
  distinct := by
    refine h.distinct.sublist (List.Sublist.map _ ?_)
    exact List.Sublist.filter _ List.filter_sublist

theorem spared {s s' : State} {T : String → Prop}
    (h : Promised kept s.framework.slaves made) (hs : Spared T s s')
    (hT : ∀ m ∈ made, m.real = true → ¬T m.slaveId)
    (hports : kept → ∀ m ∈ made, m.real = true → s.KeepsPorts s' m.slaveId) :
    Promised kept s'.framework.slaves made where
  shut m hm hreal x' hx' := by
    obtain ⟨x, hx, hoffer, hgrows⟩ := hs.slaves m.slaveId (hT m hm hreal) x' hx'
    obtain ⟨hshut, hcovers⟩ := h.shut m hm hreal x hx
    refine ⟨?_, fun hkept r hr => ?_⟩
    swap
    · exact (hcovers hkept r hr).grows hgrows (hports hkept m hm hreal x x' hx hx')
    cases hx'offer : x'.offerable with
    | false => rfl
    | true =>
      rw [hoffer hx'offer] at hshut
      cases hshut
  distinct := h.distinct

theorem length_le_one (h : Promised kept slaves made) {p : MadeOffer → Bool}
    (hp : ∀ m, p m = true → m.real = true ∧ m.slaveId = k) : (made.filter p).length ≤ 1 := by
  -- these are among the offers whose slaves are distinct
  have hsub : (made.filter p).Sublist (made.filter (·.real)) := by
    have hfilter : made.filter p = (made.filter (·.real)).filter p := by
      rw [List.filter_filter]
      apply List.filter_congr
      intro m _
      cases hm : p m with
      | true => rw [(hp m hm).1]; rfl
      | false => rfl
    rw [hfilter]
    exact List.filter_sublist
  have hnodup := h.distinct.sublist (hsub.map (·.slaveId))
  have hsame : (made.filter p).map (·.slaveId) = List.replicate (made.filter p).length k := by
    rw [List.eq_replicate_iff]
    refine ⟨List.length_map _, fun b hb => ?_⟩
    obtain ⟨m, hm, rfl⟩ := mem_map.mp hb
    exact (hp m (mem_filter.mp hm).2).2
  rw [hsame, List.nodup_replicate] at hnodup
  exact hnodup

end Promised

/-! ## One pass of the offer loop -/

namespace OfferPass

variable {now : ℚ} {sent : Bool} {p : OfferPass}

/-- The offers made before the pass and in it. -/
def made (p : OfferPass) (before : List MadeOffer) (sent : Bool) : List MadeOffer :=
  before ++ p.offers.map fun offer => ⟨offer, sent⟩

theorem made_save (p : OfferPass) (before : List MadeOffer) (sent : Bool) (offer : ResourceOffer) :
    (p.save offer).made before sent = p.made before sent ++ [⟨offer, sent⟩] := by
  simp only [OfferPass.made, save, List.map_append, List.map_cons, List.map_nil, List.append_assoc]

theorem slaves_save (p : OfferPass) (offer : ResourceOffer) :
    (p.save offer).framework.slaves = p.framework.slaves := rfl

theorem lookup_offerSlave (p : OfferPass) (hk : k ≠ e.1) :
    (p.offerSlave now e).framework.slaves.lookup k = p.framework.slaves.lookup k := by
  unfold offerSlave
  split
  · split
    · rfl
    · show (Framework.modifySlave _ _ _).slaves.lookup k = _
      rw [Framework.lookup_modifySlave, if_neg hk]
  · split
    · rfl
    · rfl

theorem offerSlave_promised (h : Promised kept p.framework.slaves (p.made before sent))
    (hx : p.framework.slaves.lookup e.1 = some e.2)
    (hamounts : e.2.mayOffer now = true → e.2.NonNegative) :
    Promised kept (p.offerSlave now e).framework.slaves ((p.offerSlave now e).made before sent) := by
  unfold offerSlave
  split
  · rename_i hmay
    split
    · exact h
    · have hoffer : e.2.offerable = true := by
        simp only [Slave.mayOffer, Bool.and_eq_true] at hmay
        exact hmay.1.1
      dsimp only
      rw [made_save, slaves_save]
      generalize hmade : (⟨buildOffer p.framework.id (p.lastOfferId + 1) e.1 e.2, sent⟩ :
        MadeOffer) = m
      have hresources : m.resources = buildResources e.2 := by rw [← hmade]; rfl
      have hslave : isPlaceholder m.slaveId = false → m.slaveId = e.1 := by
        rw [← hmade]
        simp only [buildOffer]
        split
        · rename_i hplace
          intro hnot
          rw [String.append_assoc, isPlaceholder_append hplace] at hnot
          cases hnot
        · exact fun _ => rfl
      -- the slave is not offerable any more, and has the same resources
      let x' : Slave := { e.2 with
        offer := some (buildOffer p.framework.id (p.lastOfferId + 1) e.1 e.2).toOffer
        offerable := false }
      have hlookup : ∀ k, (p.framework.modifySlave e.1 fun x => { x with
          offer := some (buildOffer p.framework.id (p.lastOfferId + 1) e.1 e.2).toOffer
          offerable := false }).slaves.lookup k =
          if k = e.1 then some x' else p.framework.slaves.lookup k := by
        intro k
        rw [Framework.lookup_modifySlave, hx]
        rfl
      cases hreal : m.real with
      | true =>
        have hid := hslave (by simpa [MadeOffer.real] using (Bool.and_eq_true_iff.mp hreal).2)
        have hself := (hlookup m.slaveId).trans (if_pos hid)
        refine h.concat (hid ▸ hx) hoffer hself (fun k hk => ?_) rfl fun r hr => ?_
        · rw [hlookup, if_neg (hid ▸ hk)]
        · rw [hresources] at hr
          exact (covers_buildResources (hamounts hmay) r hr).grows (.of_account rfl) fun _ h => h
      | false =>
        refine Promised.concat_of_not_real ⟨fun m' hm' hreal' y hy => ?_, h.distinct⟩ hreal
        rw [hlookup] at hy
        split at hy
        · rename_i hid
          have hshut := (h.shut m' hm' hreal' e.2 (hid ▸ hx)).1
          rw [hoffer] at hshut
          cases hshut
        · exact h.shut m' hm' hreal' y hy
  · split
    · exact h
    · exact h

theorem foldl_offerSlave_promised
    {es : List (Sigma fun _ : String => Slave)} (hnodup : (es.map (·.1)).Nodup)
    (h : Promised kept p.framework.slaves (p.made before sent))
    (hes : ∀ e ∈ es, p.framework.slaves.lookup e.1 = some e.2)
    (hamounts : ∀ e ∈ es, e.2.mayOffer now = true → e.2.NonNegative) :
    Promised kept (es.foldl (offerSlave now) p).framework.slaves
      ((es.foldl (offerSlave now) p).made before sent) := by
  induction es generalizing p with
  | nil => exact h
  | cons e rest ih =>
    obtain ⟨hfirst, hrest⟩ := List.nodup_cons.mp hnodup
    have hstep := offerSlave_promised h (hes e List.mem_cons_self) (hamounts e List.mem_cons_self)
    refine ih hrest hstep (fun e' he' => ?_) fun e' he' => hamounts e' (List.mem_cons_of_mem _ he')
    have hne : e'.1 ≠ e.1 := fun heq => hfirst (mem_map.mpr ⟨e', he', heq⟩)
    rw [lookup_offerSlave p hne]
    exact hes e' (List.mem_cons_of_mem _ he')

theorem offerPlaceholder_promised (h : Promised kept p.framework.slaves (p.made before sent)) :
    Promised kept p.offerPlaceholder.framework.slaves (p.offerPlaceholder.made before sent) := by
  unfold offerPlaceholder
  rw [made_save, slaves_save]
  apply h.concat_of_not_real
  have hplace : ∀ n x,
      isPlaceholder (buildOffer p.framework.id n "place-holder" x).slaveId = true := by
    intro n x
    have h : isPlaceholder "place-holder" = true := by decide
    simp only [buildOffer, h, if_true]
    rw [String.append_assoc]
    exact isPlaceholder_append h _
  simp only [MadeOffer.real, hplace, Bool.not_true, Bool.and_false]

theorem offerPlaceholders_promised (initialTasks : Nat)
    (h : Promised kept p.framework.slaves (p.made before sent)) :
    Promised kept (p.offerPlaceholders now initialTasks).framework.slaves
      ((p.offerPlaceholders now initialTasks).made before sent) := by
  have hadvance : Promised kept p.advancePlaceholder.framework.slaves
      (p.advancePlaceholder.made before sent) := by
    unfold advancePlaceholder
    split
    · exact h
    · exact h
  have hfold : ∀ (l : List Nat) {p : OfferPass}, Promised kept p.framework.slaves (p.made before sent) →
      Promised kept (l.foldl (fun p _ => p.offerPlaceholder) p).framework.slaves
        ((l.foldl (fun p _ => p.offerPlaceholder) p).made before sent) := by
    intro l
    induction l with
    | nil => exact fun h => h
    | cons _ l ih => exact fun h => ih (offerPlaceholder_promised h)
  unfold offerPlaceholders
  dsimp only
  split
  · split
    · split
      · exact hfold _ hadvance
      · exact hadvance
    · exact h
  · exact h

theorem pass_induction {P : OfferPass → Prop} (hsave : ∀ p offer, P p → P (p.save offer))
    (hslave : ∀ p k g, P p → P { p with framework := p.framework.modifySlave k g })
    (hafter : ∀ p t, P p → P { p with offerableAfter := t })
    (hplaceholder : ∀ p t, P p →
      P { p with framework := { p.framework with placeholderOfferableAfter := t } })
    (now : ℚ) (initialTasks : Nat) {p : OfferPass} (h : P p) :
    P (generateOffersForFramework now initialTasks p) := by
  have hoffer : ∀ p e, P p → P (p.offerSlave now e) := by
    intro p e hp
    unfold offerSlave
    split
    · split
      · exact hp
      · exact hsave _ _ (hslave _ _ _ hp)
    · split
      · exact hafter _ _ hp
      · exact hp
  have hslaves : ∀ (es : List (Sigma fun _ : String => Slave)) p, P p →
      P (es.foldl (offerSlave now) p) := by
    intro es
    induction es with
    | nil => exact fun _ hp => hp
    | cons e rest ih => exact fun p hp => ih _ (hoffer p e hp)
  have hplaceholders : ∀ (l : List Nat) p, P p → P (l.foldl (fun p _ => p.offerPlaceholder) p) := by
    intro l
    induction l with
    | nil => exact fun _ hp => hp
    | cons _ l ih => exact fun p hp => ih _ (hsave _ _ hp)
  have hadvance : ∀ p, P p → P p.advancePlaceholder := by
    intro p hp
    unfold advancePlaceholder
    split
    · exact hplaceholder _ _ hp
    · exact hp
  have hloop : P (p.offerSlaves now) := hslaves _ _ h
  unfold generateOffersForFramework offerPlaceholders
  dsimp only
  split
  · split
    · split
      · exact hplaceholders _ _ (hadvance _ hloop)
      · exact hadvance _ hloop
    · exact hloop
  · exact hloop

theorem tasks_generateOffersForFramework (now : ℚ) (initialTasks : Nat) (p : OfferPass) :
    (generateOffersForFramework now initialTasks p).framework.tasks = p.framework.tasks :=
  pass_induction (P := fun p' => p'.framework.tasks = p.framework.tasks) (fun _ _ h => h)
    (fun _ _ _ h => (Framework.tasks_modifySlave _ _ _).trans h) (fun _ _ h => h) (fun _ _ h => h)
    now initialTasks rfl

end OfferPass

/-! ## Runs -/

namespace OfferService

variable {env : Env} {o : OfferService}

/-- The offer loop finds no negative amounts, the tasks in the messages ask for none, and no request
    touches a slave for which an offer is outstanding that it does not answer. -/
def Orderly (o : OfferService) : OfferEvent → Prop
  | .generate _ _ => ∀ k x, o.state.framework.slaves.lookup k = some x →
      x.mayOffer o.state.clock = true → x.NonNegative
  | .event e => ∀ entry r, e.request = some (entry, r) →
      (∀ t ∈ r.tasks, NonNeg (t.resources.getD [])) ∧
      ∀ m ∈ o.unanswered, m.real = true → m.id ∉ e.answers → ¬r.Touches o.state m.slaveId

/-- A slave for which an offer is outstanding that the request does not answer keeps its ports while
    the request is handled. -/
def KeepsPorts (env : Env) (o : OfferService) : OfferEvent → Prop
  | .generate _ _ => True
  | .event e => ∀ entry r, e.request = some (entry, r) →
      ∀ m ∈ o.unanswered, m.real = true → m.id ∉ e.answers →
        o.state.KeepsPorts ((handle env entry r).after o.state) m.slaveId

structure Sound (kept : Prop) (o : OfferService) : Prop where
  solvent : Solvent o.state
  promised : Promised kept o.state.framework.slaves o.unanswered

theorem Sound.generate (h : o.Sound kept) (initialTasks : Nat) (sent : Bool)
    (hamounts : ∀ k x, o.state.framework.slaves.lookup k = some x →
      x.mayOffer o.state.clock = true → x.NonNegative) :
    (o.generate initialTasks sent).Sound kept := by
  let p : OfferPass :=
    { framework := { o.state.framework with nextOfferTime := 0 }, lastOfferId := o.lastOfferId }
  have hstart : Promised kept p.framework.slaves (p.made o.unanswered sent) := by
    rw [OfferPass.made, List.map_nil, List.append_nil]
    exact h.promised
  have hlookup : ∀ e ∈ p.framework.slaves.entries, p.framework.slaves.lookup e.1 = some e.2 :=
    fun e he => AList.mem_lookup_iff.mpr he
  have hslaves := OfferPass.foldl_offerSlave_promised p.framework.slaves.nodupKeys hstart hlookup
    fun e he => hamounts e.1 e.2 (hlookup e he)
  refine ⟨?_, OfferPass.offerPlaceholders_promised initialTasks hslaves⟩
  have htasks := OfferPass.tasks_generateOffersForFramework o.state.clock initialTasks p
  intro k r hr
  have hlookup :
      (generateOffersForFramework o.state.clock initialTasks p).framework.tasks.lookup k =
      some r := hr
  rw [htasks] at hlookup
  exact h.solvent k r hlookup

theorem Sound.postprocessor {s : State} {made : List MadeOffer} (hsolvent : Solvent s)
    (hpromised : Promised kept s.framework.slaves made) :
    Solvent (targetPostprocessor s) ∧
      Promised kept (targetPostprocessor s).framework.slaves made := by
  constructor
  · intro k r hr
    have hlookup := lookup_tasks_deleteAll s.deleteElements s.framework k
    split at hlookup
    · exact absurd (hr.symm.trans hlookup) (by simp)
    · exact hsolvent k r (hlookup.symm.trans hr)
  · refine ⟨fun m hm hreal x hx => ?_, hpromised.distinct⟩
    have hlookup := lookup_slaves_deleteAll s.deleteElements s.framework m.slaveId
    split at hlookup
    · exact absurd (hx.symm.trans hlookup) (by simp)
    · exact hpromised.shut m hm hreal x (hlookup.symm.trans hx)

theorem Sound.handle (h : o.Sound kept) (env : Env) (entry : Entry) {r : Request}
    {answers : List String} (hr : ∀ t ∈ r.tasks, NonNeg (t.resources.getD []))
    (htouches : ∀ m ∈ o.unanswered, m.real = true → m.id ∉ answers →
      ¬r.Touches o.state m.slaveId)
    (hports : kept → ∀ m ∈ o.unanswered, m.real = true → m.id ∉ answers →
      o.state.KeepsPorts ((handle env entry r).after o.state) m.slaveId) :
    Solvent ((handle env entry r).after o.state) ∧
      Promised kept ((handle env entry r).after o.state).framework.slaves
        (o.unanswered.filter (·.id ∉ answers)) := by
  obtain ⟨hspared, hsolvent⟩ := handle_spares env entry hr o.state h.solvent
  refine ⟨hsolvent, (h.promised.filter _).spared hspared (fun m hm hreal => ?_)
    fun hkept m hm hreal => ?_⟩
  · obtain ⟨hmem, hkeep⟩ := mem_filter.mp hm
    exact htouches m hmem hreal (of_decide_eq_true hkeep)
  · obtain ⟨hmem, hkeep⟩ := mem_filter.mp hm
    exact hports hkept m hmem hreal (of_decide_eq_true hkeep)

theorem Sound.event (h : o.Sound kept) (e : Event) (horderly : o.Orderly (.event e))
    (hkeeps : kept → o.KeepsPorts env (.event e)) : (o.step env (.event e)).Sound kept := by
  cases e with
  | queued r =>
    obtain ⟨hr, htouches⟩ := horderly .queue r rfl
    obtain ⟨hsolvent, hpromised⟩ :=
      h.handle env .queue hr htouches fun hkept => hkeeps hkept .queue r rfl
    exact ⟨(postprocessor hsolvent hpromised).1, (postprocessor hsolvent hpromised).2⟩
  | http c =>
    have hcall : ∀ r, (Event.http c).request = some (.http, r) →
        c.handle env = Urb.handle env .http r → (o.step env (.event (.http c))).Sound kept := by
      intro r hrequest hhandle
      obtain ⟨hr, htouches⟩ := horderly .http r hrequest
      obtain ⟨hsolvent, hpromised⟩ :=
        h.handle env .http hr htouches fun hkept => hkeeps hkept .http r hrequest
      rw [← hhandle] at hsolvent hpromised
      exact ⟨hsolvent, hpromised⟩
    cases c with
    | revive => exact ⟨h.solvent, h.promised.filter _⟩
    | acceptLaunch offerIds refuseSeconds tasks => exact hcall _ rfl rfl
    | decline offerIds refuseSeconds => exact hcall _ rfl rfl
    | kill taskId => exact hcall _ rfl rfl
    | reconcile tasks => exact hcall _ rfl rfl
    | updateExecutor u => exact hcall _ rfl rfl
    | subscribeExecutor executorId => exact hcall _ rfl rfl
  | deleteJob jobId =>
    obtain ⟨hspared, hsolvent⟩ := Sparing.deleteJob (T := fun _ => False) jobId o.state h.solvent
    have hbooks : SameBooks o.state ((Urb.deleteJob jobId).after o.state) :=
      (Quietly.deleteJob jobId).sameBooks o.state
    exact ⟨hsolvent, (h.promised.filter _).spared hspared (fun _ _ _ => id)
      fun _ m _ _ => hbooks.keepsPorts m.slaveId⟩
  | postprocessed =>
    obtain ⟨hsolvent, hpromised⟩ := postprocessor h.solvent (h.promised.filter _)
    exact ⟨hsolvent, hpromised⟩
  | clock now => exact ⟨h.solvent, h.promised.filter _⟩

theorem Sound.step (h : o.Sound kept) (e : OfferEvent) (horderly : o.Orderly e)
    (hkeeps : kept → o.KeepsPorts env e) : (o.step env e).Sound kept := by
  cases e with
  | generate initialTasks sent =>
    by_cases hactive : o.state.tracking = .active
    · rw [OfferService.step, if_pos hactive]
      exact h.generate initialTasks sent horderly
    · rw [OfferService.step, if_neg hactive]
      exact h
  | event e => exact h.event e horderly hkeeps

theorem Sound.start (hnone : o.unanswered = []) (hsolvent : Solvent o.state) : o.Sound kept := by
  refine ⟨hsolvent, ?_⟩
  rw [hnone]
  exact ⟨nofun, List.nodup_nil⟩

/-- A slave has registered, and it is offered. -/
def offered : List OfferEvent :=
  [.event (.queued (.registerExecutorRunner Sample.runner)), .event (.clock 1), .generate 1 true]

/-- The framework declines the offer, and the slave is offered again later. -/
def declined : List OfferEvent :=
  offered ++ [.event (.queued (.launchTasks { offerIds := ["offer-framework-1"] })),
    .event (.clock 3), .generate 1 true]

/-- Offers are revived while the framework has the offer. -/
def revived : List OfferEvent :=
  offered ++ [.event (.queued .reviveOffers), .generate 1 true]

end OfferService

end Urb
