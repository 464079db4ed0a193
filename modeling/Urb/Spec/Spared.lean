import Mathlib.Data.Fintype.EquivFin
import Urb.Native.Offers
import Urb.Spec.PortArithmetic
import Urb.Spec.Stable

/-!
# What a request leaves of the other slaves

A request makes the slaves that it `Touches` offerable, or takes resources from them. All other
slaves are `Spared`: they do not become offerable, and their amounts grow, since a task that ends
gives its resources back. Of their ports nothing is said: `PortRangeUtility.add`, which gives ports
back, may lose some of those that it adds to.
-/

namespace Urb

variable {ts : List TaskInfo} {m : RegisterExecutorRunnerMessage} {ids' : List String}
    {k slaveId : String} {r : Resource} {t : TaskInfo} {e : PyError} {delta : ℚ}

variable {env : Env}

open EStateM (Triple Keeps)

/-! ## What a slave has -/

/-- The port is in one of the ranges. -/
def Within (port : Int) (ranges : List PortRange) : Prop :=
  ∃ range ∈ ranges, range.first ≤ port ∧ port ≤ range.last

/-- There is at least as much of the second resource. -/
structure Resource.Le (r r' : Resource) : Prop where
  name : r'.name = r.name
  scalar : r.scalar.getD 0 ≤ r'.scalar.getD 0
  ranges : ∀ port, Within port (r.ranges.getD []) → Within port (r'.ranges.getD [])

theorem Resource.Le.refl (r : Resource) : r.Le r := ⟨rfl, le_refl _, fun _ h => h⟩

theorem Resource.Le.trans {r1 r2 r3 : Resource} (h : r1.Le r2) (h' : r2.Le r3) : r1.Le r3 :=
  ⟨h'.name.trans h.name, h.scalar.trans h'.scalar, fun port hp => h'.ranges port (h.ranges port hp)⟩

/-- The slave has the resource, and this much of it. -/
inductive Slave.Has (x : Slave) : Resource → Prop
  | cpus : Has x { name := "cpus", type := .scalar, scalar := some x.cpus }
  | mem : Has x { name := "mem", type := .scalar, scalar := some x.mem }
  | disk : Has x { name := "disk", type := .scalar, scalar := some x.disk }
  | ports : Has x { name := "ports", type := .ranges, ranges := some x.ports }
  | gpus (g : ℚ) (hg : x.gpus = some g) :
      Has x { name := "gpus", type := .scalar, scalar := some g }
  | custom (name : String) (c : CustomResource)
      (hc : (x.customResources.getD ∅).lookup name = some c) : Has x (c.resource name)

/-- The slave has at least this much of the resource. -/
def Slave.Covers (x : Slave) (r : Resource) : Prop := ∃ r', x.Has r' ∧ r.Le r'

/-- The second slave has all that the first has, except for ports. -/
structure Slave.Grows (x x' : Slave) : Prop where
  cpus : x.cpus ≤ x'.cpus
  mem : x.mem ≤ x'.mem
  disk : x.disk ≤ x'.disk
  gpus : ∀ g, x.gpus = some g → ∃ g', x'.gpus = some g' ∧ g ≤ g'
  custom : ∀ name c, (x.customResources.getD ∅).lookup name = some c →
    ∃ c', (x'.customResources.getD ∅).lookup name = some c' ∧
      (c.resource name).Le (c'.resource name)

/-- The second slave has the ports that the first has. -/
def Slave.KeepsPorts (x x' : Slave) : Prop := ∀ port, Within port x.ports → Within port x'.ports

namespace Slave

variable {x x' x'' : Slave}

theorem Grows.refl (x : Slave) : x.Grows x where
  cpus := le_refl _
  mem := le_refl _
  disk := le_refl _
  gpus g hg := ⟨g, hg, le_refl g⟩
  custom _ c hc := ⟨c, hc, .refl _⟩

theorem Grows.trans (h : x.Grows x') (h' : x'.Grows x'') : x.Grows x'' where
  cpus := h.cpus.trans h'.cpus
  mem := h.mem.trans h'.mem
  disk := h.disk.trans h'.disk
  gpus g hg := by
    obtain ⟨g1, hg1, hle⟩ := h.gpus g hg
    obtain ⟨g2, hg2, hle'⟩ := h'.gpus g1 hg1
    exact ⟨g2, hg2, hle.trans hle'⟩
  custom name c hc := by
    obtain ⟨c1, hc1, hle⟩ := h.custom name c hc
    obtain ⟨c2, hc2, hle'⟩ := h'.custom name c1 hc1
    exact ⟨c2, hc2, hle.trans hle'⟩

theorem Covers.grows (h : x.Covers r) (hx : x.Grows x') (hports : x.KeepsPorts x') :
    x'.Covers r := by
  obtain ⟨r1, hr1, hle⟩ := h
  suffices hcovers : x'.Covers r1 by
    obtain ⟨r2, hr2, hle'⟩ := hcovers
    exact ⟨r2, hr2, hle.trans hle'⟩
  cases hr1 with
  | cpus => exact ⟨_, .cpus, rfl, hx.cpus, fun _ h => h⟩
  | mem => exact ⟨_, .mem, rfl, hx.mem, fun _ h => h⟩
  | disk => exact ⟨_, .disk, rfl, hx.disk, fun _ h => h⟩
  | ports => exact ⟨_, .ports, rfl, le_refl _, hports⟩
  | gpus g hg =>
    obtain ⟨g', hg', hle⟩ := hx.gpus g hg
    exact ⟨_, .gpus g' hg', rfl, hle, fun _ h => h⟩
  | custom name c hc =>
    obtain ⟨c', hc', hle⟩ := hx.custom name c hc
    exact ⟨_, .custom name c' hc', hle⟩

theorem Grows.of_account (h : x'.account = x.account) : x.Grows x' := by
  simp only [account, Prod.mk.injEq] at h
  obtain ⟨hcpus, hmem, hdisk, hgpus, -, hcustom, -⟩ := h
  refine ⟨hcpus.ge, hmem.ge, hdisk.ge, fun g hg => ⟨g, hgpus.trans hg, le_refl g⟩,
    fun name c hc => ⟨c, ?_, .refl _⟩⟩
  rw [hcustom]
  exact hc

end Slave

/-! ## Credits -/

/-- The slave gains resources, and is as offerable as before. -/
def Gains (x x' : Slave) : Prop := x.Grows x' ∧ x'.offerable = x.offerable

theorem Gains.refl (x : Slave) : Gains x x := ⟨.refl x, rfl⟩

theorem Gains.trans {x1 x2 x3 : Slave} (h : Gains x1 x2) (h' : Gains x2 x3) : Gains x1 x3 :=
  ⟨h.1.trans h'.1, h'.2.trans h.2⟩

theorem orRaise_bind_gains {α β : Type} {o : Option α} {f : α → SlaveM β}
    (hf : ∀ a, o = some a → Keeps Gains (f a)) : Keeps Gains (orRaise o e >>= f) := by
  cases o with
  | none => exact fun x => .refl x
  | some a => exact hf a rfl

theorem adjustBuiltin_gains (name : String) (hdelta : 0 ≤ delta) :
    Keeps Gains (adjustBuiltin name delta) := by
  refine Keeps.get_bind fun x => ?_
  have hle : ∀ q : ℚ, q ≤ q + delta := fun q => by linarith
  have hsame := Slave.Grows.refl x
  split
  · exact ⟨{ hsame with cpus := hle _ }, rfl⟩
  · split
    · exact ⟨{ hsame with mem := hle _ }, rfl⟩
    · split
      · exact ⟨{ hsame with disk := hle _ }, rfl⟩
      · split
        · rename_i g hg
          refine ⟨{ hsame with gpus := fun g' hg' => ?_ }, rfl⟩
          rw [hg] at hg'
          cases hg'
          exact ⟨g + delta, rfl, hle g⟩
        · exact .refl x

theorem adjustCustom_gains (name : String) (hdelta : 0 ≤ delta) :
    Keeps Gains (adjustCustom name delta) := by
  refine Keeps.get_bind fun x => ?_
  split
  · exact .refl x
  · rename_i custom hcustom
    split
    · exact .refl x
    · exact .refl x
    · rename_i v hv
      refine ⟨{ Slave.Grows.refl x with custom := fun name' c hc => ?_ }, rfl⟩
      rw [hcustom] at hc
      by_cases hname : name' = name
      · subst hname
        refine ⟨.scalar (v + delta), AList.lookup_insert custom, ?_⟩
        have hc' : c = .scalar v := by
          rw [Option.getD_some, hv] at hc
          exact (Option.some.inj hc).symm
        subst hc'
        refine ⟨rfl, ?_, fun _ h => h⟩
        show v ≤ v + delta
        linarith
      · exact ⟨c, (AList.lookup_insert_ne hname).trans hc, .refl _⟩

theorem adjustResource_gains (hr : 0 ≤ r.scalar.getD 0) :
    Keeps Gains (adjustResource env.portAdd 1 r) := by
  have hvalue : ∀ v, r.scalar = some v → 0 ≤ 1 * v := fun v hv => by
    rw [hv, Option.getD_some] at hr
    rwa [one_mul]
  unfold adjustResource
  split
  · refine orRaise_bind_gains fun given _ => Keeps.get_bind fun x => ?_
    cases hleft : env.portAdd x.ports given with
    | ok left => exact ⟨{ Slave.Grows.refl x with }, rfl⟩
    | error e => exact .refl x
  · exact Keeps.ite (orRaise_bind_gains fun v hv => adjustBuiltin_gains _ (hvalue v hv))
      (Keeps.ite (orRaise_bind_gains fun v hv => adjustCustom_gains _ (hvalue v hv))
        fun x => .refl x)

theorem creditResources_gains (env : Env) (ht : NonNeg (t.resources.getD [])) :
    Keeps Gains (creditResources env t) := by
  have hadjust : ∀ rs, NonNeg rs → Keeps Gains (adjustResources env.portAdd 1 rs) := by
    intro rs hrs
    induction rs with
    | nil => exact fun x => .refl x
    | cons r rs ih =>
      exact (adjustResource_gains (hrs r List.mem_cons_self)).seq (fun _ _ _ => .trans)
        (fun _ _ h => h) fun _ => ih fun r' hr' => hrs r' (List.mem_cons_of_mem _ hr')
  exact (hadjust _ ht).seq (fun _ _ _ => .trans) (fun _ _ h => h) fun _ x =>
    ⟨{ Slave.Grows.refl x with }, rfl⟩

/-! ## Sparing slaves -/

/-- No task asks for negative amounts. -/
def Solvent (s : State) : Prop :=
  ∀ k r, s.framework.tasks.lookup k = some r → NonNeg (r.taskInfo.resources.getD [])

/-- The slaves outside the set do not become offerable, and their amounts do not shrink. -/
structure Spared (T : String → Prop) (s s' : State) : Prop where
  offers : s'.framework.offers = s.framework.offers
  slaves : ∀ k, ¬T k → ∀ x', s'.framework.slaves.lookup k = some x' →
    ∃ x, s.framework.slaves.lookup k = some x ∧ (x'.offerable = true → x.offerable = true) ∧
      x.Grows x'

/-- From a solvent state the slaves are spared, and the state stays solvent. -/
def Spares (T : String → Prop) (s s' : State) : Prop :=
  Solvent s → Spared T s s' ∧ Solvent s'

section Primitives

variable {env : Env} {T : String → Prop} {s s' : State} {α β : Type}

theorem Spared.refl (s : State) : Spared T s s :=
  ⟨rfl, fun _ _ x hx => ⟨x, hx, id, .refl x⟩⟩

theorem Spared.trans {s1 s2 s3 : State} (h : Spared T s1 s2) (h' : Spared T s2 s3) :
    Spared T s1 s3 where
  offers := h'.offers.trans h.offers
  slaves k hk x3 hx3 := by
    obtain ⟨x2, hx2, hoffer, hgrows⟩ := h'.slaves k hk x3 hx3
    obtain ⟨x1, hx1, hoffer', hgrows'⟩ := h.slaves k hk x2 hx2
    exact ⟨x1, hx1, hoffer' ∘ hoffer, hgrows'.trans hgrows⟩

theorem Spares.refl (s : State) : Spares T s s := fun hs => ⟨.refl s, hs⟩

theorem Spares.trans {s1 s2 s3 : State} (h : Spares T s1 s2) (h' : Spares T s2 s3) :
    Spares T s1 s3 := by
  intro hs1
  obtain ⟨hspared, hs2⟩ := h hs1
  obtain ⟨hspared', hs3⟩ := h' hs2
  exact ⟨hspared.trans hspared', hs3⟩

theorem Spares.of_framework (ht : s'.framework.tasks = s.framework.tasks)
    (hs : s'.framework.slaves = s.framework.slaves)
    (ho : s'.framework.offers = s.framework.offers) :
    Spares T s s' := by
  intro hsolvent
  refine ⟨⟨ho, fun k _ x hx => ⟨x, hs ▸ hx, id, .refl x⟩⟩, fun k r hr => hsolvent k r ?_⟩
  rw [← ht]
  exact hr

theorem Spares.modifyTask (s : State) (taskId : String) (g : TaskRecord → TaskRecord)
    (hg : ∀ r, (g r).bill = r.bill) :
    Spares T s { s with framework := s.framework.modifyTask taskId g } := by
  intro hsolvent
  obtain ⟨taskDict, hdict⟩ := s.framework.exists_modifyTask taskId g
  refine ⟨⟨by rw [hdict], fun k _ x hx => ⟨x, ?_, id, .refl x⟩⟩, fun k r' hr' => ?_⟩
  · rw [← Framework.slaves_modifyTask s.framework taskId g]
    exact hx
  · dsimp only at hr'
    rw [Framework.lookup_modifyTask] at hr'
    split at hr'
    · obtain ⟨r, hr, rfl⟩ := Option.map_eq_some_iff.mp hr'
      have hbill : (g r).taskInfo.resources = r.taskInfo.resources := congrArg Prod.snd (hg r)
      rw [hbill]
      exact hsolvent taskId r hr
    · exact hsolvent k r' hr'

theorem Spares.setSlave (s : State) {x' : Slave}
    (h : T k ∨ ∃ x, s.framework.slaves.lookup k = some x ∧
      (x'.offerable = true → x.offerable = true) ∧ x.Grows x') :
    Spares T s { s with framework := s.framework.setSlave k x' } := by
  refine fun hsolvent => ⟨⟨rfl, fun k' hk' y hy => ?_⟩, hsolvent⟩
  have hlookup : (s.framework.slaves.insert k x').lookup k' = some y := hy
  by_cases hk : k' = k
  · subst hk
    rw [AList.lookup_insert] at hlookup
    cases hlookup
    exact h.resolve_left hk'
  · rw [AList.lookup_insert_ne hk] at hlookup
    exact ⟨y, hlookup, id, .refl y⟩

theorem Spares.modifySlave (s : State) {g : Slave → Slave}
    (h : T k ∨ ∀ x, ((g x).offerable = true → x.offerable = true) ∧ x.Grows (g x)) :
    Spares T s { s with framework := s.framework.modifySlave k g } := by
  unfold Framework.modifySlave
  split
  · rename_i x hx
    apply Spares.setSlave
    rcases h with hk | hg
    · exact .inl hk
    · exact .inr ⟨x, hx, hg x⟩
  · exact .refl s

theorem Mute.spares (h : Mute s s') : Spares T s s' := by
  cases h with
  | emit e he => exact .of_framework rfl rfl rfl
  | modifyTask taskId g hg => exact .modifyTask s taskId g fun r => (hg r).1
  | modifySlave slaveId g hg =>
    exact .modifySlave s (.inr fun x => ⟨(hg x).2, .of_account (hg x).1.1⟩)
  | delete d k => exact .of_framework rfl rfl rfl
  | retry r => exact .of_framework rfl rfl rfl
  | framework f ht hs ho hc hj => exact .of_framework ht hs ho

theorem Mutely.spares {m : Handler α} (h : Mutely m) : Keeps (Spares T) m :=
  h.of_steps .refl (fun _ _ _ => .trans) fun _ _ hstep => hstep.spares

end Primitives

instance Spares.isPreorder (T : String → Prop) : IsPreorder State (Spares T) where
  refl := .refl
  trans _ _ _ := .trans

/-! ## Handlers -/

/-- The computation spares the slaves outside the set. -/
def Sparing {α : Type} (T : String → Prop) (m : Handler α) : Prop :=
  Keeps (Spares T) m

namespace Sparing

variable {env : Env} {T : String → Prop} {α β : Type} {f : α → Handler β} {x : Handler α}

variable {k : String} (entry : Entry) (taskId : String)

theorem orRaise_bind {o : Option α}
    (hf : ∀ a, o = some a → Sparing T (f a)) : Sparing T (Urb.orRaise o e >>= f) := by
  cases o with
  | none => exact .throw e
  | some a => exact hf a rfl

theorem emit (e : Effect) : Sparing T (Urb.emit e) := fun _ => .of_framework rfl rfl rfl

theorem modifyTask (g : TaskRecord → TaskRecord)
    (hg : ∀ r, (g r).bill = r.bill) : Sparing T (Urb.modifyFramework (·.modifyTask taskId g)) :=
  fun s => .modifyTask s taskId g hg

theorem modifySlave (hk : T k) (g : Slave → Slave) :
    Sparing T (Urb.modifyFramework (·.modifySlave k g)) := fun s => .modifySlave s (.inl hk)

theorem sendStatusUpdate (state : TaskState) (slaveId : Option String) :
    Sparing T (Urb.sendStatusUpdate taskId state slaveId) :=
  .bind .get fun _ => .ite (.pure _) (emit _)

theorem onSlave (hk : T k) (m : SlaveM α) : Sparing T (Urb.onSlave k m) := by
  intro s
  rw [EStateM.after_eq_state, Urb.onSlave]
  cases s.framework.slaves.lookup k with
  | none => exact .refl s
  | some x =>
    dsimp only
    cases m x with
    | ok a x' => exact .setSlave s (.inl hk)
    | error e x' => exact .setSlave s (.inl hk)

theorem debitSlave (env : Env) {k : String} (hk : T k) (t : TaskInfo) :
    Sparing T (Urb.debitSlave env k t) :=
  .bind (onSlave hk _) fun _ => emit _

theorem creditSlave (k : String)
    (ht : NonNeg (t.resources.getD [])) : Sparing T (Urb.creditSlave env k t) := by
  refine .bind (emit _) fun _ s => ?_
  rw [EStateM.after_eq_state, Urb.onSlave]
  cases hx : s.framework.slaves.lookup k with
  | none => exact .refl s
  | some x =>
    have hgains := creditResources_gains env ht x
    rw [EStateM.after_eq_state] at hgains
    dsimp only
    cases hm : creditResources env t x with
    | ok a x' =>
      rw [hm] at hgains
      exact .setSlave s (.inr ⟨x, hx, fun h => hgains.2 ▸ h, hgains.1⟩)
    | error e x' =>
      rw [hm] at hgains
      exact .setSlave s (.inr ⟨x, hx, fun h => hgains.2 ▸ h, hgains.1⟩)

theorem storeTask {r : TaskRecord} (hr : NonNeg (r.taskInfo.resources.getD [])) :
    Sparing T (Urb.storeTask taskId r) := by
  refine fun s hsolvent => ⟨⟨rfl, fun _ _ x hx => ⟨x, hx, id, .refl x⟩⟩, fun k r' hr' => ?_⟩
  have hlookup : (s.framework.tasks.insert taskId r).lookup k = some r' := hr'
  by_cases hk : k = taskId
  · rw [hk, AList.lookup_insert] at hlookup
    cases hlookup
    exact hr
  · rw [AList.lookup_insert_ne hk] at hlookup
    exact hsolvent k r' hlookup

theorem scaleUp (env : Env) (scaleCount : Option Nat) :
    Sparing T (Urb.scaleUp env scaleCount) := by
  have hsubmit : ∀ n, Sparing T (Urb.submitExecutorRunner env n) := by
    intro n
    refine .bind .get fun s => ?_
    split
    · exact .bind (emit _) fun _ => .pure _
    · exact .pure _
  exact .bind .get fun _ => .ite (.pure _) <| .bind (hsubmit _) fun _ =>
    .bind (fun _ => .of_framework rfl rfl rfl) fun _ => .pure _

/-! ### `launch_tasks` -/

theorem processTaskLostStatusUpdate (slaveId : Option String) :
    Sparing T (Urb.processTaskLostStatusUpdate taskId slaveId) :=
  .bind (sendStatusUpdate _ _ _) fun _ => .bind .get fun _ =>
    .ite (.bind (modifyTask _ _ fun _ => rfl) fun _ => (Mutely.addDeleteElement _ _).spares)
      (.throw _)

theorem launchOnPlaceholder (env : Env) (t : TaskInfo) (slaveId : String) (v : LaunchVars) :
    Sparing T (Urb.launchOnPlaceholder env t slaveId v) := by
  have hassign : ∀ jobId, Sparing T (assignJob t slaveId jobId) := fun jobId =>
    .bind (modifyTask _ _ fun _ => by rfl) fun _ => .bind .get fun _ =>
      .ite (processTaskLostStatusUpdate _ _) (.pure _)
  unfold Urb.launchOnPlaceholder
  split
  · exact .bind (hassign _) fun _ => .pure _
  · refine .bind .get fun _ => .bind (scaleUp _ _) fun jobs => ?_
    split
    · exact .bind (processTaskLostStatusUpdate _ _) fun _ => .pure _
    · exact .bind (hassign _) fun _ => .pure _

theorem launchOnSlave (env : Env) (m : LaunchTasksMessage) (t : TaskInfo) {k : String} (hk : T k)
    (v : LaunchVars) : Sparing T (Urb.launchOnSlave env m t k v) := by
  refine .bind .get fun s => ?_
  dsimp only
  split
  · exact .pure _
  · split
    · exact .pure _
    · exact .bind (modifyTask _ _ fun _ => by rfl) fun _ => .bind (emit _) fun _ =>
        .bind (modifySlave hk _) fun _ => .bind (debitSlave _ hk _) fun _ =>
        .bind (modifySlave hk _) fun _ => .bind (Mutely.runIfRegistered _ _).spares fun _ => .pure _

theorem launchLoop (env : Env) (m : LaunchTasksMessage) (hT : ∀ t ∈ ts, ∀ k, t.slave = some k → T k)
    (hts : ∀ t ∈ ts, NonNeg (t.resources.getD []))
    (v : LaunchVars) : Sparing T (Urb.launchLoop env m ts v) := by
  induction ts generalizing v with
  | nil => exact .pure _
  | cons t rest ih =>
    have hlaunch : Sparing T (Urb.launchTask env m t v) :=
      orRaise_bind fun k hslave => .bind .get fun _ =>
        .bind (storeTask _ (hts t List.mem_cons_self)) fun _ =>
        .ite (.bind (launchOnPlaceholder _ _ _ _) fun _ => .pure _)
          (launchOnSlave _ _ _ (hT t List.mem_cons_self k hslave) _)
    refine .bind hlaunch fun o => ?_
    cases o with
    | none => exact .pure _
    | some v =>
      exact ih (fun t' ht' => hT t' (List.mem_cons_of_mem _ ht'))
        (fun t' ht' => hts t' (List.mem_cons_of_mem _ ht')) v

/-! ### Offers that are refused -/

/-- The slaves of the offers that the service knows are in the set. -/
def Known (T : String → Prop) (ids : List String) (s : State) : Prop :=
  ∀ id ∈ ids, ∀ offer, s.framework.offers.lookup id = some offer → T offer.slaveId

section Refusals

variable {ids : List String}

theorem bind_known (hx : Keeps (fun s s' => Known T ids s → Spares T s s') x)
    (hf : ∀ a, Keeps (fun s s' => Known T ids s → Spares T s s') (f a)) :
    Keeps (fun s s' => Known T ids s → Spares T s s') (x >>= f) := by
  refine hx.seq (fun s1 s2 s3 h h' hknown hs => ?_) (fun _ _ h => h) hf
  obtain ⟨hspared, hs'⟩ := h hknown hs
  have hknown' : Known T ids s2 := by
    unfold Known
    rw [hspared.offers]
    exact hknown
  obtain ⟨hspared', hs''⟩ := h' hknown' hs'
  exact ⟨hspared.trans hspared', hs''⟩

theorem refuseSlave (hk : T k) (maxRejectedOffers : Nat) (refuseSeconds : Option ℚ)
    (offerId : String) (slave : Slave) (t : Option ℚ) :
    Sparing T (Urb.refuseSlave maxRejectedOffers refuseSeconds offerId k slave t) :=
  .ite (.bind (Mutely.addDeleteElement _ _).spares fun _ => .bind (modifySlave hk _) fun _ =>
      .pure _)
    (.bind .get fun _ => .bind (modifySlave hk _) fun _ =>
      .bind (.ite (.pure _) (Mutely.addDeleteElement _ _).spares) fun _ =>
      .bind (.ite (.bind (emit _) fun _ => (Mutely.deleteSlave _).spares) (.pure _)) fun _ =>
      .pure _)

theorem refuseOffers (maxRejectedOffers : Nat) (refuseSeconds : Option ℚ)
    (hids : ∀ id ∈ ids', id ∈ ids) (t : Option ℚ) :
    Keeps (fun s s' => Known T ids s → Spares T s s')
      (Urb.refuseOffers maxRejectedOffers refuseSeconds ids' t) := by
  induction ids' generalizing t with
  | nil => exact fun s _ => .refl s
  | cons id rest ih =>
    refine bind_known (Keeps.get_bind fun s hknown => ?_) fun t =>
      ih (fun id' hid' => hids id' (List.mem_cons_of_mem _ hid')) t
    dsimp only
    split
    · exact .refl s
    · rename_i offer hoffer
      split
      · exact refuseSlave (hknown id (hids id List.mem_cons_self) offer hoffer) _ _ _ _ _ s
      · exact Keeps.ite (R := Spares T) (Mutely.refusePlaceholder _ _ _).spares (.pure _) s

theorem processRemainingOffers (refuseSeconds : Option ℚ) (hids : ∀ id ∈ ids', id ∈ ids) :
    Keeps (fun s s' => Known T ids s → Spares T s s')
      (Urb.processRemainingOffers refuseSeconds ids') :=
  bind_known (fun s _ => .refl s) fun _ =>
    bind_known (fun s _ => Keeps.orRaise (R := Spares T) _ _ s) fun _ =>
    bind_known (refuseOffers _ _ hids _) fun _ s _ => (Mutely.scheduleOffers _).spares s

end Refusals

/-! ### `kill_task` and `status_update` -/

section Credits

theorem killKnownTask {task : TaskRecord}
    (htask : NonNeg (task.taskInfo.resources.getD [])) :
    Sparing T (Urb.killKnownTask env taskId task) := by
  refine .bind .get fun _ => .bind (modifyTask _ _ fun _ => by rfl) fun _ =>
    .bind (Mutely.addDeleteElement _ _).spares fun _ => .bind (sendStatusUpdate _ _ _) fun _ =>
    .bind .get fun _ => ?_
  dsimp only
  split
  · exact .bind (.bind .get fun _ => .bind (.orRaise _ _) fun _ => .ite (.pure _)
      (creditSlave _ htask)) fun _ => .bind (Mutely.sendKillTask _ _).spares fun _ =>
      .ite (.bind Mutely.setOfferEvent.spares fun _ => .pure _) (.pure _)
  · exact .bind (Mutely.deletePendingJob _).spares fun _ =>
      .bind Mutely.setOfferEvent.spares fun _ => .pure _

theorem killTask : Sparing T (Urb.killTask env entry taskId) := by
  have hkill : Sparing T (killTaskOf env taskId) := by
    refine Keeps.get_bind fun s hs => ?_
    dsimp only
    split
    · rename_i task hlookup
      exact killKnownTask taskId (hs taskId task hlookup) s hs
    · exact ⟨.refl s, hs⟩
  exact .bind .get fun _ => .ite (.bind hkill fun _ => .ite (.pure _) (Mutely.retry _ _).spares)
    (Mutely.retry _ _).spares

theorem handleStatusUpdate (u : StatusUpdate) : Sparing T (Urb.handleStatusUpdate env u) := by
  refine Keeps.get_bind fun s hs => ?_
  split
  · exact sendStatusUpdate _ _ _ s hs
  · rename_i task hlookup
    have htask := hs u.taskId task hlookup
    refine Keeps.bind (R := Spares T) (modifyTask _ _ fun _ => by rfl) (fun _ => ?_) s hs
    split
    · refine .bind (sendStatusUpdate _ _ _) fun _ => .bind .get fun _ => .bind (.orRaise _ _)
        fun slaves => ?_
      split
      · refine .ite (.bind (.ite (Mutely.releaseCommand _ _ _).spares ?_) fun _ =>
          .bind .get fun _ =>
          .bind (modifyTask _ _ fun _ => by rfl) fun _ => (Mutely.addDeleteElement _ _).spares)
          (.pure _)
        exact .bind (creditSlave _ htask) fun _ => .bind .get fun _ => .ite (emit _) (.pure _)
      · exact .pure _
    · exact sendStatusUpdate _ _ _

theorem handleUpdates (us : List StatusUpdate) : Sparing T (Urb.handleUpdates env us) := by
  induction us with
  | nil => exact .pure _
  | cons u rest ih => exact .bind (handleStatusUpdate u) fun _ => ih

end Credits

/-! ### Registrations -/

section Registrations

variable {env : Env}

theorem reregisterTasks (hk : T slaveId) (jobId channel : String)
    (hts : ∀ t ∈ ts, NonNeg (t.resources.getD [])) :
    Sparing T (Urb.reregisterTasks env slaveId jobId channel ts) := by
  induction ts with
  | nil => exact .pure _
  | cons t rest ih =>
    refine .bind (.bind (modifySlave hk _) fun _ => .bind (storeTask _ ?_) fun _ =>
      debitSlave _ hk _) fun _ => ih fun t' ht' => hts t' (List.mem_cons_of_mem _ ht')
    exact hts t List.mem_cons_self

theorem rebuildTasks (hk : T slaveId) (jobId : String)
    (hts : ∀ t ∈ ts, NonNeg (t.resources.getD [])) :
    Sparing T (Urb.rebuildTasks env slaveId jobId ts) := by
  induction ts with
  | nil => exact .pure _
  | cons t rest ih =>
    refine .bind (storeTask _ ?_) fun _ => .bind (debitSlave _ hk _) fun _ =>
      ih fun t' ht' => hts t' (List.mem_cons_of_mem _ ht')
    exact hts t List.mem_cons_self

theorem startPending (hk : T m.slaveId) : Sparing T (Urb.startPending env m) := by
  have hpending : ∀ entries v, Sparing T (pendingTasks env m entries v) := by
    intro entries
    induction entries with
    | nil => exact fun v => .pure _
    | cons e rest ih =>
      intro v
      refine .bind (.ite (.bind (.orRaise _ _) fun _ => .bind ?_ fun _ =>
        .bind (debitSlave _ hk _) fun _ => .pure _) (.pure _)) fun v => ih v
      exact .ite (Mutely.adoptPending _ _ _ _ _).spares (.pure _)
  exact .bind Mutely.taskEntries.spares fun _ => .bind (hpending _ _) fun _ =>
    .bind (.ite (.pure _) (.bind (emit _) fun _ => .ite (.pure _)
      (.bind (scaleUp _ _) fun _ => .pure _))) fun _ => modifySlave hk _

theorem registerExecutor (entry : Entry) (m : RegisterExecutorMessage) :
    Sparing T (Urb.registerExecutor env entry m) := by
  refine .bind .get fun s => .ite (.bind (.orRaise _ _) fun _ => ?_) (.pure _)
  split
  · exact (Mutely.retry _ _).spares
  · refine .ite (Mutely.retry _ _).spares ?_
    refine .bind ?_ fun _ => .bind .get fun _ => .bind (.orRaise _ _) fun _ =>
      .bind Mutely.taskEntries.spares fun _ => .bind ?_ fun _ =>
      .bind (Mutely.taskInDocker _ _).spares fun _ =>
      .ite (.pure _) (.bind (scaleUp _ _) fun _ => .pure _)
    · cases entry with
      | queue =>
        exact Mutely.spares (.bind (Mutely.modifySlave _ _ fun _ => ⟨⟨rfl, rfl⟩, id⟩) fun _ =>
          Mutely.emit _ rfl)
      | http => exact .pure _
    · split
      · exact (Mutely.startTasks _ _ _ _ _ _).spares
      · exact .pure _

end Registrations

/-! ### Reconciliation and the end of a job -/

theorem replaceTaskDict (t : Option TaskRecord) :
    Sparing T (Urb.replaceTaskDict entry taskId t) := by
  refine fun s _ => ⟨⟨rfl, fun _ _ x hx => ⟨x, hx, id, .refl x⟩⟩, fun k r hr => ?_⟩
  have hlookup : ((∅ : Dict TaskRecord).insert taskId (lostRecord entry taskId)).lookup k =
      some r := hr
  by_cases hk : k = taskId
  · rw [hk, AList.lookup_insert] at hlookup
    cases hlookup
    cases entry with
    | queue => exact nofun
    | http => exact nofun
  · rw [AList.lookup_insert_ne hk] at hlookup
    cases hlookup

theorem reconcileTasks (env : Env) (entry : Entry) (statuses : List ReconcileStatus) :
    Sparing T (Urb.reconcileTasks env entry statuses) := by
  have hdetermine : ∀ taskId t slaveId,
      Sparing T (determineState env entry taskId t slaveId) := by
    intro taskId t slaveId
    cases slaveId with
    | some id => exact .bind .get fun _ => .pure _
    | none =>
      refine .bind (Mutely.waitingSince _ _).spares fun since => ?_
      cases since with
      | none => exact .pure _
      | some queueTime =>
        exact .bind .get fun _ => .ite (.bind (replaceTaskDict _ _ _) fun _ => .pure _) (.pure _)
  have htask : ∀ x, Sparing T (reconcileTask env entry x) := by
    intro x
    refine .bind .get fun _ => .bind (Mutely.resolveReconcileSlave _ _).spares fun slaveId => ?_
    split
    · exact .throw _
    · exact .pure _
    · exact sendStatusUpdate _ _ _
    · refine .bind (hdetermine _ _ _) fun o => ?_
      split
      · exact .pure _
      · exact sendStatusUpdate _ _ _
  have hexplicit : ∀ xs, Sparing T (reconcileExplicit env entry xs) := by
    intro xs
    induction xs with
    | nil => exact .pure _
    | cons x rest ih => exact .bind (htask x) fun _ => ih
  have himplicit : ∀ es, Sparing T (reconcileImplicit es) := by
    intro es
    induction es with
    | nil => exact .pure _
    | cons e rest ih =>
      exact .bind (.ite (.ite (sendStatusUpdate _ _ _) (.throw _)) (.pure _)) fun _ => ih
  refine .bind .get fun _ => .ite ?_ (Mutely.retry _ _).spares
  cases statuses with
  | nil => exact .bind Mutely.taskEntries.spares fun es => himplicit es
  | cons x rest => exact hexplicit (x :: rest)

theorem deleteJob (jobId : String) : Sparing T (Urb.deleteJob jobId) := by
  have hlose : ∀ es, Sparing T (loseTasks jobId es) := by
    intro es
    induction es with
    | nil => exact .pure _
    | cons e rest ih => exact .bind (.ite (processTaskLostStatusUpdate _ _) (.pure _)) fun _ => ih
  refine .bind .get fun s => .ite (.pure _) (.bind (Mutely.deleteSlaves _).spares fun _ => ?_)
  split
  · exact .pure _
  · exact .bind (fun _ => .of_framework rfl rfl rfl) fun _ =>
      .bind Mutely.taskEntries.spares fun es => hlose es

end Sparing

/-! ## Requests -/

/-- The slaves that a request may make offerable, or take resources from: the slaves of the tasks
    and of the known offers of a `LaunchTasks` message, the slave whose runner or executor registers
    (again), and all slaves if offers are revived. -/
def Request.Touches (s : State) : Request → String → Prop
  | .launchTasks m, k => (∃ t ∈ m.tasks, t.slave = some k) ∨
      ∃ id ∈ m.offerIds, ∃ offer, s.framework.offers.lookup id = some offer ∧ offer.slaveId = k
  | .reviveOffers, k => k ∈ s.framework.slaves
  | .registerExecutorRunner m, k => k = m.slaveId
  | .reregisterExecutor m, k => s.framework.slaveOnChannel m.replyTo = some k
  | _, _ => False

theorem launchTasks_spares (env : Env) (entry : Entry) {m : LaunchTasksMessage}
    (hm : ∀ t ∈ m.tasks, NonNeg (t.resources.getD [])) (s : State) :
    Spares (Request.Touches s (.launchTasks m)) s ((launchTasks env entry m).after s) := by
  let T := Request.Touches s (.launchTasks m)
  have hknown : Sparing.Known T m.offerIds s := fun id hid offer hoffer =>
    .inr ⟨id, hid, offer, hoffer, rfl⟩
  have hloop : Sparing T (launchLoop env m m.tasks {}) :=
    Sparing.launchLoop env m (fun t ht k hk => .inl ⟨t, ht, hk⟩) hm {}
  have hkeeps : Keeps (fun s s' => Sparing.Known T m.offerIds s → Spares T s s')
      (launchTasks env entry m) := by
    refine Sparing.bind_known (fun s _ => .refl s) fun _ => Keeps.ite
      (Sparing.bind_known (fun s _ => .of_framework rfl rfl rfl) fun _ =>
        Sparing.bind_known (fun s _ => hloop s) fun o => ?_)
      fun s _ => (Mutely.retry _ _).spares s
    cases o with
    | none => exact fun s _ => .refl s
    | some v =>
      refine Sparing.processRemainingOffers _ fun id hid => ?_
      exact List.mem_dedup.mp (List.mem_filter.mp hid).1
  exact hkeeps s hknown

theorem reviveOffers_spares (s : State) :
    Spares (Request.Touches s .reviveOffers) s (reviveOffers.after s) := by
  let T := Request.Touches s .reviveOffers
  have hreset : Spares T s { s with framework := resetOffers s.framework } := by
    refine fun hs => ⟨⟨rfl, fun k hk x' hx' => absurd ?_ hk⟩, hs⟩
    -- the slaves are the same as before
    have hsome := congrArg Option.isSome (account_resetOffers s.framework k)
    rw [show (resetOffers s.framework).slaves.lookup k = some x' from hx'] at hsome
    simp only [Option.map_some, Option.isSome_some, Option.isSome_map] at hsome
    exact AList.lookup_isSome.mp hsome.symm
  simp only [reviveOffers, EStateM.after_bind, EStateM.get_apply]
  split
  · exact hreset.trans (Mutely.setOfferEvent.spares _)
  · exact .refl s

theorem registerExecutorRunner_spares (env : Env) (entry : Entry)
    (hm : ∀ t ∈ m.tasks, NonNeg (t.resources.getD [])) :
    Sparing (fun k => k = m.slaveId) (registerExecutorRunner env entry m) := by
  have hadd : Sparing (fun k => k = m.slaveId) (addSlave env m) :=
    .bind (fun s => .setSlave s (.inl rfl)) fun _ => .bind (Sparing.emit _) fun _ _ =>
      .of_framework rfl rfl rfl
  refine .bind .get fun _ => .ite (.bind hadd fun _ => ?_) ?_
  · cases htasks : m.tasks with
    | nil => exact Sparing.startPending rfl
    | cons t rest =>
      rw [htasks] at hm
      exact .bind (Sparing.modifySlave (by rfl) _) fun _ => Sparing.rebuildTasks (by rfl) _ hm
  · exact .bind .get fun _ => .ite (Sparing.emit _)
      (.ite (.ite (Mutely.retry _ _).spares (Sparing.emit _)) (.pure _))

theorem reregisterExecutor_spares
    {m : ReregisterExecutorMessage} (hm : ∀ t ∈ m.tasks, NonNeg (t.resources.getD []))
    (s : State) :
    Spares (Request.Touches s (.reregisterExecutor m)) s
      ((reregisterExecutor env m).after s) := by
  simp only [reregisterExecutor, EStateM.after_bind, EStateM.get_apply]
  split
  · exact .refl s
  · rename_i slaveId hslave
    have hk : Request.Touches s (.reregisterExecutor m) slaveId := by
      split at hslave
      · exact hslave
      · cases hslave
    refine Keeps.bind (R := Spares _) (Sparing.modifySlave hk _) (fun _ => ?_) s
    split
    · exact .pure _
    · exact .bind (Sparing.reregisterTasks hk _ _ hm) fun _ =>
        .bind (Sparing.handleUpdates _) fun _ => .bind (Sparing.emit _) fun _ =>
        Sparing.modifySlave hk _

/-- The handler of a request spares the slaves that the request does not touch. -/
theorem handle_spares (env : Env) (entry : Entry) {r : Request}
    (hr : ∀ t ∈ r.tasks, NonNeg (t.resources.getD [])) (s : State) :
    Spares (r.Touches s) s ((handle env entry r).after s) := by
  cases r with
  | launchTasks m => exact launchTasks_spares env entry hr s
  | killTask taskId => exact Sparing.killTask entry taskId s
  | reconcileTasks statuses => exact Sparing.reconcileTasks env entry statuses s
  | reviveOffers => exact reviveOffers_spares s
  | statusUpdate u =>
    exact Keeps.bind (R := Spares _) .get
      (fun _ => .ite (Sparing.handleStatusUpdate u) (Mutely.retry _ _).spares) s
  | registerExecutorRunner m => exact registerExecutorRunner_spares env entry hr s
  | reregisterExecutor m => exact reregisterExecutor_spares hr s
  | registerExecutor m => exact Sparing.registerExecutor entry m s

end Urb
