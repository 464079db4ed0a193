import Mathlib.Logic.Relation
import Urb.Native.Entry

/-!
# What the handlers leave alone

Most statements of the handlers do not touch the accounts of the slaves: they write
messages, queue deletions, and assign to fields that the accounting does not read.
`Silent` lists these assignments; a handler part is `Silently` run when it is a
sequence of them, whether it returns or raises. `Quiet` adds the one assignment
to `job_ids` that `scale_up` makes.

Each part of a handler is classified once, here. What a property needs to know about
the parts it does not care about then follows by looking at the constructors.
-/

theorem EStateM.Keeps.orRaise {α : Type} {R : Urb.State → Urb.State → Prop}
    [IsPreorder Urb.State R] (o : Option α) (e : Urb.PyError) : Keeps R (Urb.orRaise o e) := by
  cases o with
  | none => exact .throw e
  | some a => exact .pure a

namespace Urb

open EStateM (Keeps after_bind get_apply)

variable (env : Env) (entry : Entry) (m : RegisterExecutorMessage) (slaveId jobId taskId : String)

/-- Two additions to a log are one. -/
theorem exists_append_trans {α : Type} {P : α → Prop} {l l' l'' : List α}
    (h : ∃ new, l' = l ++ new ∧ ∀ e ∈ new, P e) (h' : ∃ new, l'' = l' ++ new ∧ ∀ e ∈ new, P e) :
    ∃ new, l'' = l ++ new ∧ ∀ e ∈ new, P e := by
  obtain ⟨new, rfl, hnew⟩ := h
  obtain ⟨new', rfl, hnew'⟩ := h'
  refine ⟨new ++ new', List.append_assoc _ _ _, fun e he => ?_⟩
  rcases List.mem_append.mp he with he | he
  · exact hnew e he
  · exact hnew' e he

/-! ## Looking up after an assignment -/

namespace Framework

variable (f : Framework) (k k' : String)

variable (g : TaskRecord → TaskRecord)

@[simp] theorem tasks_setTask (r : TaskRecord) : (f.setTask k r).tasks = f.tasks.insert k r := rfl

@[simp] theorem slaves_setTask (r : TaskRecord) : (f.setTask k r).slaves = f.slaves := rfl

@[simp] theorem slaves_setSlave (s : Slave) : (f.setSlave k s).slaves = f.slaves.insert k s := rfl

@[simp] theorem tasks_setSlave (s : Slave) : (f.setSlave k s).tasks = f.tasks := rfl

theorem lookup_modifyTask : (f.modifyTask k g).tasks.lookup k' =
      if k' = k then (f.tasks.lookup k).map g else f.tasks.lookup k' := by
  unfold modifyTask
  split
  · rename_i r hr
    by_cases h : k' = k
    · subst h; simp [hr]
    · simp [h]
  · rename_i hr
    by_cases h : k' = k
    · subst h; simp [hr]
    · simp [h]

theorem lookup_modifySlave (g : Slave → Slave) : (f.modifySlave k g).slaves.lookup k' =
      if k' = k then (f.slaves.lookup k).map g else f.slaves.lookup k' := by
  unfold modifySlave
  split
  · rename_i r hr
    by_cases h : k' = k
    · subst h; simp [hr]
    · simp [h]
  · rename_i hr
    by_cases h : k' = k
    · subst h; simp [hr]
    · simp [h]

@[simp] theorem slaves_modifyTask : (f.modifyTask k g).slaves = f.slaves := by
  unfold modifyTask; split <;> rfl

@[simp] theorem tasks_modifySlave (g : Slave → Slave) : (f.modifySlave k g).tasks = f.tasks := by
  unfold modifySlave; split <;> rfl

@[simp] theorem config_modifyTask : (f.modifyTask k g).config = f.config := by
  unfold modifyTask; split <;> rfl

@[simp] theorem config_modifySlave (g : Slave → Slave) : (f.modifySlave k g).config = f.config := by
  unfold modifySlave; split <;> rfl

@[simp] theorem jobIds_modifyTask : (f.modifyTask k g).jobIds = f.jobIds := by
  unfold modifyTask; split <;> rfl

@[simp] theorem jobIds_modifySlave (g : Slave → Slave) : (f.modifySlave k g).jobIds = f.jobIds := by
  unfold modifySlave; split <;> rfl

theorem exists_modifyTask : ∃ taskDict, f.modifyTask k g = { f with taskDict } := by
  unfold modifyTask
  split
  · exact ⟨_, rfl⟩
  · exact ⟨f.taskDict, rfl⟩

theorem exists_modifySlave (g : Slave → Slave) :
    ∃ slaveDict, f.modifySlave k g = { f with slaveDict } := by
  unfold modifySlave
  split
  · exact ⟨_, rfl⟩
  · exact ⟨f.slaveDict, rfl⟩

theorem mem_modifyTask : k' ∈ (f.modifyTask k g).tasks ↔ k' ∈ f.tasks := by
  rw [← AList.lookup_isSome, ← AList.lookup_isSome, lookup_modifyTask]
  split
  · rename_i h; subst h; simp
  · rfl

theorem map_lookup_modifySlave (g : Slave → Slave) (hg : ∀ x, (g x).channel = x.channel) :
    ((f.modifySlave k g).slaves.lookup k').map (·.channel) =
      (f.slaves.lookup k').map (·.channel) := by
  rw [lookup_modifySlave]
  split
  · rename_i h; subst h
    cases f.slaves.lookup k' <;> simp [hg]
  · rfl

end Framework

/-! ## Silent assignments -/

/-- The effects that the accounts of the slaves are about. -/
def Effect.booked : Effect → Bool
  | .initialized _ => true
  | .stored _ => true
  | .debited _ _ _ => true
  | .credited _ _ _ => true
  | _ => false

/-- What the accounting reads of a slave. -/
def Slave.account (s : Slave) :
    ℚ × ℚ × ℚ × Option ℚ × List PortRange × Option (Dict CustomResource) × Int :=
  (s.cpus, s.mem, s.disk, s.gpus, s.ports, s.customResources, s.taskCount)

/-- What the accounting reads of a task record. -/
def TaskRecord.bill (r : TaskRecord) : String × Option (List Resource) :=
  (r.taskInfo.taskId, r.taskInfo.resources)

/-- One assignment that the accounting does not see. -/
inductive Silent : State → State → Prop
  | emit (s : State) (e : Effect) (he : e.booked = false) :
      Silent s { s with effects := s.effects ++ [e] }
  | modifyTask (s : State) (taskId : String) (g : TaskRecord → TaskRecord)
      (hg : ∀ r, (g r).bill = r.bill) :
      Silent s { s with framework := s.framework.modifyTask taskId g }
  | modifySlave (s : State) (slaveId : String) (g : Slave → Slave)
      (hg : ∀ x, (g x).account = x.account ∧ (g x).channel = x.channel) :
      Silent s { s with framework := s.framework.modifySlave slaveId g }
  | delete (s : State) (d : DictRef) (k : String) :
      Silent s { s with deleteElements := s.deleteElements ++ [⟨d, k⟩] }
  | retry (s : State) (r : Request) : Silent s { s with retryQueue := s.retryQueue ++ [r] }
  | revive (s : State) : Silent s { s with framework := resetOffers s.framework }
  | framework (s : State) (f : Framework) (ht : f.tasks = s.framework.tasks)
      (hs : f.slaves = s.framework.slaves) (ho : f.offers = s.framework.offers)
      (hc : f.config = s.framework.config) (hj : f.jobIds = s.framework.jobIds) :
      Silent s { s with framework := f }

/-- The computation is a sequence of silent assignments. -/
def Silently {α : Type} (m : Handler α) : Prop :=
  Keeps (Relation.ReflTransGen Silent) m

/-- The effects that tell the framework the state of a task. -/
def Effect.isStatusUpdate : Effect → Bool
  | .statusUpdate _ _ _ _ => true
  | _ => false

/-- One silent assignment that changes no task's state, tells the framework of none, and makes no
    slave offerable. -/
inductive Mute : State → State → Prop
  | emit (s : State) (e : Effect) (he : (e.booked || e.isStatusUpdate) = false) :
      Mute s { s with effects := s.effects ++ [e] }
  | modifyTask (s : State) (taskId : String) (g : TaskRecord → TaskRecord)
      (hg : ∀ r, (g r).bill = r.bill ∧ (g r).state = r.state) :
      Mute s { s with framework := s.framework.modifyTask taskId g }
  | modifySlave (s : State) (slaveId : String) (g : Slave → Slave)
      (hg : ∀ x, ((g x).account = x.account ∧ (g x).channel = x.channel) ∧
        ((g x).offerable = true → x.offerable = true)) :
      Mute s { s with framework := s.framework.modifySlave slaveId g }
  | delete (s : State) (d : DictRef) (k : String) :
      Mute s { s with deleteElements := s.deleteElements ++ [⟨d, k⟩] }
  | retry (s : State) (r : Request) : Mute s { s with retryQueue := s.retryQueue ++ [r] }
  | framework (s : State) (f : Framework) (ht : f.tasks = s.framework.tasks)
      (hs : f.slaves = s.framework.slaves) (ho : f.offers = s.framework.offers)
      (hc : f.config = s.framework.config) (hj : f.jobIds = s.framework.jobIds) :
      Mute s { s with framework := f }

theorem Mute.silent {s s' : State} (h : Mute s s') : Silent s s' := by
  cases h with
  | emit e he => exact .emit s e (Bool.or_eq_false_iff.mp he).1
  | modifyTask taskId g hg => exact .modifyTask s taskId g fun r => (hg r).1
  | modifySlave slaveId g hg => exact .modifySlave s slaveId g fun x => (hg x).1
  | delete d k => exact .delete s d k
  | retry r => exact .retry s r
  | framework f ht hs ho hc hj => exact .framework s f ht hs ho hc hj

/-- The computation is a sequence of mute assignments. -/
def Mutely {α : Type} (m : Handler α) : Prop :=
  Keeps (Relation.ReflTransGen Mute) m

theorem Mutely.silently {α : Type} {m : Handler α} (h : Mutely m) : Silently m :=
  fun s => (h s).lift id fun _ _ => Mute.silent

namespace Mutely

variable {α β : Type}

theorem emit (e : Effect) (he : (e.booked || e.isStatusUpdate) = false) : Mutely (Urb.emit e) :=
  fun s => .single (.emit s e he)

theorem modifyTask (g : TaskRecord → TaskRecord)
    (hg : ∀ r, (g r).bill = r.bill ∧ (g r).state = r.state) :
    Mutely (modifyFramework (·.modifyTask taskId g)) :=
  fun s => .single (.modifyTask s taskId g hg)

theorem modifySlave (g : Slave → Slave)
    (hg : ∀ x, ((g x).account = x.account ∧ (g x).channel = x.channel) ∧
      ((g x).offerable = true → x.offerable = true)) :
    Mutely (modifyFramework (·.modifySlave slaveId g)) :=
  fun s => .single (.modifySlave s slaveId g hg)

theorem modifyFramework (g : Framework → Framework)
    (hg : ∀ f, (g f).tasks = f.tasks ∧ (g f).slaves = f.slaves ∧ (g f).offers = f.offers ∧
      (g f).config = f.config ∧ (g f).jobIds = f.jobIds) :
    Mutely (Urb.modifyFramework g) := fun s =>
  have ⟨ht, hs, ho, hc, hj⟩ := hg s.framework
  .single (.framework s (g s.framework) ht hs ho hc hj)

theorem addDeleteElement (d : DictRef) (k : String) : Mutely (Urb.addDeleteElement d k) :=
  fun s => .single (.delete s d k)

theorem retry (r : Request) : Mutely (Urb.retry entry r) := by
  cases entry with
  | queue => exact fun s => .single (.retry s r)
  | http => exact .pure ()

theorem setOfferEvent : Mutely Urb.setOfferEvent :=
  .bind .get fun _ => .ite (emit _ rfl) (.throw _)

/-! ## Mute parts of `launch_tasks` -/

theorem deleteSlave : Mutely (Urb.deleteSlave slaveId) := by
  refine .bind (addDeleteElement _ _) fun _ =>
    .bind (modifySlave _ _ fun _ => ⟨⟨rfl, rfl⟩, nofun⟩) fun _ => modifyFramework _ fun f => ?_
  unfold Framework.forgetPlaceholder
  split <;> exact ⟨rfl, rfl, rfl, rfl, rfl⟩

theorem refusePlaceholder (refuseSeconds : Option ℚ) (offerId : String) (t : Option ℚ) :
    Mutely (Urb.refusePlaceholder refuseSeconds offerId t) :=
  .bind .get fun _ => .ite
    (.bind (modifyFramework _ fun _ => ⟨rfl, rfl, rfl, rfl, rfl⟩) fun _ => .pure _)
    (.bind (addDeleteElement _ _) fun _ => .pure _)

theorem scheduleOffers (t : Option ℚ) : Mutely (Urb.scheduleOffers t) :=
  .ite (.pure _) (.bind (modifyFramework _ fun _ => ⟨rfl, rfl, rfl, rfl, rfl⟩) fun _ =>
    setOfferEvent)

theorem runTask (channel taskId : String) : Mutely (Urb.runTask channel taskId) :=
  .bind (emit _ rfl) fun _ => modifyTask _ _ fun _ => ⟨rfl, rfl⟩

theorem runIfRegistered : Mutely (Urb.runIfRegistered slaveId taskId) := by
  refine .bind .get fun _ => .bind (.orRaise _ _) fun _ =>
    .bind (.ite (.bind (.orRaise _ _) fun _ => .pure _) (.pure _)) fun channel => ?_
  cases channel with
  | some ch => exact runTask _ _
  | none => exact .pure _

/-! ## Mute parts of `kill_task` and `status_update` -/

theorem sendKillTask : Mutely (Urb.sendKillTask slaveId taskId) := by
  refine .bind .get fun _ => .bind (.orRaise _ _) fun slave => ?_
  dsimp only
  split
  · exact .bind (emit _ rfl) fun _ => .pure _
  · exact .ite (.bind (emit _ rfl) fun _ => .pure _) (.pure _)

theorem deletePendingJob (task : TaskRecord) : Mutely (Urb.deletePendingJob task) := by
  unfold Urb.deletePendingJob
  split
  · exact .ite (.pure _) (emit _ rfl)
  · exact .pure _

theorem releaseCommand (slave : Slave) : Mutely (Urb.releaseCommand slaveId taskId slave) :=
  .bind (.orRaise _ _) fun _ => .bind (.orRaise _ _) fun _ =>
    .bind (modifySlave _ _ fun _ => ⟨⟨rfl, rfl⟩, id⟩) fun _ => .ite (addDeleteElement _ _) (.pure _)

/-! ## Mute parts of the registrations -/

theorem adoptPending (placeholder taskId : String) (t : TaskInfo) (v : PendingVars) :
    Mutely (Urb.adoptPending slaveId placeholder taskId t v) := by
  refine .bind (modifyFramework _ fun _ => ⟨rfl, rfl, rfl, rfl, rfl⟩) fun _ =>
    .bind (modifySlave _ _ fun x => ?_) fun _ => .pure _
  unfold adoptTask
  split <;> exact ⟨⟨rfl, rfl⟩, id⟩

theorem taskEntries : Mutely Urb.taskEntries := by
  refine .bind .get fun s => ?_
  dsimp only
  split
  · exact .throw _
  · exact .pure _

theorem startTask (isCommand : Bool) (task : TaskRecord) :
    Mutely (Urb.startTask entry m slaveId jobId isCommand task) := by
  refine .ite (.ite ?_ (.throw _)) (.pure _)
  refine .ite (.ite ?_ (.pure _)) ?_
  · cases entry with
    | http => exact .throw _
    | queue =>
      refine .bind (modifySlave _ _ fun x => ?_) fun _ => runTask _ _
      split <;> exact ⟨⟨rfl, rfl⟩, id⟩
  · cases entry with
    | http => exact .pure _
    | queue => exact runTask _ _

theorem startTasks (isCommand : Bool) (tasks : List (Sigma fun _ : String => TaskRecord)) :
    Mutely (Urb.startTasks entry m slaveId jobId isCommand tasks) := by
  induction tasks with
  | nil => exact .pure _
  | cons t tasks ih => exact .bind (startTask _ _ _ _ _ _) fun _ => ih

theorem taskInDocker (tasks : List (Sigma fun _ : String => TaskRecord)) :
    Mutely (Urb.taskInDocker slaveId tasks) := by
  induction tasks with
  | nil => exact .pure _
  | cons t tasks ih =>
    exact .ite (.bind (.orRaise _ _) fun _ => .bind ih fun _ => .pure _) ih

theorem deleteSlaves (ids : List String) : Mutely (Urb.deleteSlaves ids) := by
  induction ids with
  | nil => exact .pure _
  | cons id ids ih => exact .bind (deleteSlave _) fun _ => ih

/-! ## Mute parts of `reconcile_tasks` -/

theorem resolveReconcileSlave (s : ReconcileStatus) (slaveId : Option String) :
    Mutely (Urb.resolveReconcileSlave s slaveId) := by
  refine .bind .get fun st => ?_
  dsimp only
  split
  · exact .pure _
  · refine .bind (.ite (.pure _) (modifyTask _ _ fun r => ?_)) fun _ => .pure _
    unfold replaceSlave TaskRecord.bill
    split <;> exact ⟨rfl, rfl⟩

theorem waitingSince (t : Option TaskRecord) : Mutely (Urb.waitingSince taskId t) := by
  refine .bind .get fun s => ?_
  split
  · exact .pure _
  · split
    · exact .pure _
    · exact .bind (modifyFramework _ fun _ => ⟨rfl, rfl, rfl, rfl, rfl⟩) fun _ => .pure _

end Mutely

/-! ## Idle parts: those that may make a slave offerable -/

/-- A mute assignment, or one that makes slaves offerable. -/
inductive Idle : State → State → Prop
  | mute {s s' : State} (h : Mute s s') : Idle s s'
  | modifySlave (s : State) (slaveId : String) (g : Slave → Slave)
      (hg : ∀ x, (g x).account = x.account ∧ (g x).channel = x.channel) :
      Idle s { s with framework := s.framework.modifySlave slaveId g }
  | revive (s : State) : Idle s { s with framework := resetOffers s.framework }

theorem Idle.silent {s s' : State} (h : Idle s s') : Silent s s' := by
  cases h with
  | mute h => exact h.silent
  | modifySlave slaveId g hg => exact .modifySlave s slaveId g hg
  | revive => exact .revive s

/-- The computation is a sequence of idle assignments. -/
def Idly {α : Type} (m : Handler α) : Prop :=
  Keeps (Relation.ReflTransGen Idle) m

theorem Idly.silently {α : Type} {m : Handler α} (h : Idly m) : Silently m :=
  fun s => (h s).lift id fun _ _ => Idle.silent

theorem Mutely.idly {α : Type} {m : Handler α} (h : Mutely m) : Idly m :=
  fun s => (h s).lift id fun _ _ => .mute

/-- One assignment of `__process_remaining_offers`. -/
inductive Refusal : State → State → Prop
  | emit (s : State) (e : Effect)
      (he : e = .setOfferEvent ∨ ∃ channel, e = .slaveShutdown channel) :
      Refusal s { s with effects := s.effects ++ [e] }
  | modifySlave (s : State) (slaveId : String) (g : Slave → Slave)
      (hg : ∀ x, (g x).account = x.account ∧ (g x).channel = x.channel ∧ (g x).offer = x.offer) :
      Refusal s { s with framework := s.framework.modifySlave slaveId g }
  | delete (s : State) (d : DictRef) (k : String) :
      Refusal s { s with deleteElements := s.deleteElements ++ [⟨d, k⟩] }
  | framework (s : State) (f : Framework) (ht : f.tasks = s.framework.tasks)
      (hs : f.slaves = s.framework.slaves) (ho : f.offers = s.framework.offers)
      (hc : f.config = s.framework.config) (hj : f.jobIds = s.framework.jobIds) :
      Refusal s { s with framework := f }

theorem Refusal.idle {s s' : State} (h : Refusal s s') : Idle s s' := by
  cases h with
  | emit e he =>
    refine .mute (.emit s e ?_)
    obtain rfl | ⟨channel, rfl⟩ := he <;> rfl
  | modifySlave slaveId g hg => exact .modifySlave s slaveId g fun x => ⟨(hg x).1, (hg x).2.1⟩
  | delete d k => exact .mute (.delete s d k)
  | framework f ht hs ho hc hj => exact .mute (.framework s f ht hs ho hc hj)

/-- The computation is a sequence of such assignments. -/
def Refusing {α : Type} (m : Handler α) : Prop :=
  Keeps (Relation.ReflTransGen Refusal) m

theorem Refusing.idly {α : Type} {m : Handler α} (h : Refusing m) : Idly m :=
  fun s => (h s).lift id fun _ _ => Refusal.idle

namespace Refusing

variable (maxRejectedOffers : Nat) (refuseSeconds : Option ℚ)

theorem modifySlave (g : Slave → Slave)
    (hg : ∀ x, (g x).account = x.account ∧ (g x).channel = x.channel ∧ (g x).offer = x.offer) :
    Refusing (modifyFramework (·.modifySlave slaveId g)) :=
  fun s => .single (.modifySlave s slaveId g hg)

theorem addDeleteElement (d : DictRef) (k : String) : Refusing (Urb.addDeleteElement d k) :=
  fun s => .single (.delete s d k)

theorem deleteSlave : Refusing (Urb.deleteSlave slaveId) := by
  refine .bind (addDeleteElement _ _) fun _ => .bind (modifySlave _ _ fun _ => ⟨rfl, rfl, rfl⟩)
    fun _ s => .single (.framework s _ ?_ ?_ ?_ ?_ ?_)
  all_goals
    dsimp only [Framework.forgetPlaceholder]
    split <;> rfl

theorem refuseSlave (offerId slaveId : String) (slave : Slave) (t : Option ℚ) :
    Refusing (Urb.refuseSlave maxRejectedOffers refuseSeconds offerId slaveId slave t) :=
  .ite
    (.bind (addDeleteElement _ _) fun _ =>
      .bind (modifySlave _ _ fun _ => ⟨rfl, rfl, rfl⟩) fun _ => .pure _)
    (.bind .get fun _ => .bind (modifySlave _ _ fun _ => ⟨rfl, rfl, rfl⟩) fun _ =>
      .bind (.ite (.pure _) (addDeleteElement _ _)) fun _ =>
      .bind (.ite (.bind (fun s => .single (.emit s _ (.inr ⟨_, rfl⟩))) fun _ => deleteSlave _)
        (.pure _)) fun _ => .pure _)

theorem refuseOffer (offerId : String) (t : Option ℚ) :
    Refusing (Urb.refuseOffer maxRejectedOffers refuseSeconds offerId t) := by
  refine .bind .get fun s => ?_
  dsimp only
  split
  · exact .pure _
  · split
    · exact refuseSlave _ _ _ _ _ _
    · refine .ite (.bind .get fun _ => .ite ?_ ?_) (.pure _)
      · exact .bind (fun s => .single (.framework s _ rfl rfl rfl rfl rfl)) fun _ => .pure _
      · exact .bind (addDeleteElement _ _) fun _ => .pure _

theorem refuseOffers (ids : List String) (t : Option ℚ) :
    Refusing (Urb.refuseOffers maxRejectedOffers refuseSeconds ids t) := by
  induction ids generalizing t with
  | nil => exact .pure _
  | cons id ids ih => exact .bind (refuseOffer _ _ _ _) fun t => ih t

theorem processRemainingOffers (ids : List String) :
    Refusing (Urb.processRemainingOffers refuseSeconds ids) :=
  .bind .get fun _ => .bind (.orRaise _ _) fun _ => .bind (refuseOffers _ _ _ _) fun _ =>
    .ite (.pure _) (.bind (fun s => .single (.framework s _ rfl rfl rfl rfl rfl)) fun _ =>
      .bind .get fun _ => .ite (fun s => .single (.emit s _ (.inl rfl))) (.throw _))

end Refusing

namespace Idly

variable (refuseSeconds : Option ℚ)

theorem modifySlave (g : Slave → Slave)
    (hg : ∀ x, (g x).account = x.account ∧ (g x).channel = x.channel) :
    Idly (Urb.modifyFramework (·.modifySlave slaveId g)) :=
  fun s => .single (.modifySlave s slaveId g hg)

theorem processRemainingOffers (ids : List String) :
    Idly (Urb.processRemainingOffers refuseSeconds ids) :=
  (Refusing.processRemainingOffers refuseSeconds ids).idly

theorem reviveOffers : Idly Urb.reviveOffers :=
  .bind .get fun _ => .ite (.bind (fun s => .single (.revive s)) fun _ => Mutely.setOfferEvent.idly)
    (.pure _)

end Idly

/-! ## Silent parts: those that may tell the framework of a task -/

namespace Silently

variable {α β : Type}

theorem emit (e : Effect) (he : e.booked = false) : Silently (Urb.emit e) :=
  fun s => .single (.emit s e he)

theorem modifyTask (g : TaskRecord → TaskRecord)
    (hg : ∀ r, (g r).bill = r.bill) : Silently (Urb.modifyFramework (·.modifyTask taskId g)) :=
  fun s => .single (.modifyTask s taskId g hg)

theorem modifySlave (g : Slave → Slave)
    (hg : ∀ x, (g x).account = x.account ∧ (g x).channel = x.channel) :
    Silently (Urb.modifyFramework (·.modifySlave slaveId g)) :=
  (Idly.modifySlave slaveId g hg).silently

theorem addDeleteElement (d : DictRef) (k : String) : Silently (Urb.addDeleteElement d k) :=
  (Mutely.addDeleteElement d k).silently

theorem retry (r : Request) : Silently (Urb.retry entry r) :=
  (Mutely.retry entry r).silently

theorem sendStatusUpdate (state : TaskState) (slaveId : Option String) :
    Silently (Urb.sendStatusUpdate taskId state slaveId) :=
  .bind .get fun _ => .ite (.pure _) (emit _ rfl)

theorem processTaskLostStatusUpdate (slaveId : Option String) :
    Silently (Urb.processTaskLostStatusUpdate taskId slaveId) :=
  .bind (sendStatusUpdate _ _ _) fun _ => .bind .get fun _ =>
    .ite (.bind (modifyTask _ _ fun _ => rfl) fun _ => addDeleteElement _ _) (.throw _)

theorem assignJob (t : TaskInfo) (slaveId jobId : String) :
    Silently (Urb.assignJob t slaveId jobId) :=
  .bind (modifyTask _ _ fun _ => rfl) fun _ => .bind .get fun _ =>
    .ite (processTaskLostStatusUpdate _ _) (.pure _)

theorem loseTasks (tasks : List (Sigma fun _ : String => TaskRecord)) :
    Silently (Urb.loseTasks jobId tasks) := by
  induction tasks with
  | nil => exact .pure _
  | cons t tasks ih =>
    exact .bind (.ite (processTaskLostStatusUpdate _ _) (.pure _)) fun _ => ih

theorem reconcileImplicit (tasks : List (Sigma fun _ : String => TaskRecord)) :
    Silently (Urb.reconcileImplicit tasks) := by
  induction tasks with
  | nil => exact .pure _
  | cons t tasks ih =>
    exact .bind (.ite (.ite (sendStatusUpdate _ _ _) (.throw _)) (.pure _)) fun _ => ih

end Silently

/-! ## Quiet parts: those that may change `job_ids` -/

/-- A silent assignment, or an assignment to `job_ids`. -/
inductive Quiet : State → State → Prop
  | silent {s s' : State} (h : Silent s s') : Quiet s s'
  | jobs (s : State) (jobIds : Option (List JobIdTuple)) :
      Quiet s { s with framework := { s.framework with jobIds } }

/-- The computation is a sequence of quiet assignments. -/
def Quietly {α : Type} (m : Handler α) : Prop :=
  Keeps (Relation.ReflTransGen Quiet) m

theorem Silently.quietly {α : Type} {m : Handler α} (h : Silently m) : Quietly m :=
  fun s => (h s).lift id fun _ _ => .silent

namespace Quietly

variable {α β : Type}

theorem submitExecutorRunner (count : Nat) : Quietly (Urb.submitExecutorRunner env count) := by
  refine .bind .get fun s => ?_
  split
  · exact .bind (Silently.emit _ rfl).quietly fun _ => .pure _
  · exact .pure _

theorem scaleUp (scaleCount : Option Nat) : Quietly (Urb.scaleUp env scaleCount) :=
  .bind .get fun _ => .ite (.pure _) <| .bind (submitExecutorRunner _ _) fun _ =>
    .bind (fun s => .single (.jobs s _)) fun _ => .pure _

theorem launchOnPlaceholder (t : TaskInfo) (slaveId : String) (v : LaunchVars) :
    Quietly (Urb.launchOnPlaceholder env t slaveId v) := by
  unfold Urb.launchOnPlaceholder
  split
  · exact .bind (Silently.assignJob _ _ _).quietly fun _ => .pure _
  · refine .bind .get fun _ => .bind (scaleUp _ _) fun jobs => ?_
    split
    · exact .bind (Silently.processTaskLostStatusUpdate _ _).quietly fun _ => .pure _
    · exact .bind (Silently.assignJob _ _ _).quietly fun _ => .pure _

theorem registerOnSlave (slave : Slave) :
    Quietly (Urb.registerOnSlave env entry m slaveId slave) := by
  refine .bind ?_ fun _ => .bind .get fun _ => .bind (.orRaise _ _) fun _ =>
    .bind Mutely.taskEntries.silently.quietly fun _ => .bind ?_ fun _ =>
    .bind (Mutely.taskInDocker _ _).silently.quietly fun _ =>
    .ite (.pure _) (.bind (scaleUp _ _) fun _ => .pure _)
  · cases entry with
    | queue =>
      exact Silently.quietly <| Mutely.silently <|
        .bind (Mutely.modifySlave _ _ fun _ => ⟨⟨rfl, rfl⟩, id⟩) fun _ => Mutely.emit _ rfl
    | http => exact .pure _
  · split
    · exact (Mutely.startTasks _ _ _ _ _ _).silently.quietly
    · exact .pure _

theorem registerExecutor : Quietly (Urb.registerExecutor env entry m) := by
  refine .bind .get fun s => .ite (.bind (.orRaise _ _) fun _ => ?_) (.pure _)
  split
  · exact (Silently.retry _ _).quietly
  · exact .ite (Silently.retry _ _).quietly (registerOnSlave _ _ _ _ _)

theorem deleteJob : Quietly (Urb.deleteJob jobId) := by
  refine .bind .get fun s => .ite (.pure _)
    (.bind (Mutely.deleteSlaves _).silently.quietly fun _ => ?_)
  split
  · exact .pure _
  · exact .bind (fun s => .single (.jobs s _)) fun _ =>
      .bind Mutely.taskEntries.silently.quietly fun _ => (Silently.loseTasks _ _).quietly

end Quietly

/-! ## Registration of a runner, taken apart -/

theorem taskEntries_eq_ok {entries : List (Sigma fun _ : String => TaskRecord)} {s s' : State}
    (hrun : taskEntries s = .ok entries s') :
    s' = s ∧ s'.framework.tasks.entries = entries := by
  simp only [taskEntries, EStateM.bind_apply, get_apply] at hrun
  cases hstray : s.framework.strayTask with
  | none =>
    rw [hstray] at hrun
    cases hrun
    exact ⟨rfl, rfl⟩
  | some r =>
    rw [hstray] at hrun
    cases hrun

theorem after_registerExecutorRunner
    (m : RegisterExecutorRunnerMessage) {s : State} (hactive : s.tracking = .active) :
    (registerExecutorRunner env entry m).after s =
      (match m.tasks with
      | [] => startPending env m
      | t :: rest => do
        modifyFramework (·.modifySlave m.slaveId ({ · with executor := t.executor }))
        rebuildTasks env m.slaveId m.jobId (t :: rest) : Handler Unit).after
        ((addSlave env m).after s) := by
  simp only [registerExecutorRunner, after_bind, get_apply, hactive, if_true]
  rfl

theorem after_registerExecutorRunner_inactive
    (m : RegisterExecutorRunnerMessage) {s : State} (hinactive : s.tracking ≠ .active) :
    (registerExecutorRunner env entry m).after s = (refuseRunner entry m).after s := by
  simp only [registerExecutorRunner, after_bind, get_apply, hinactive, if_false]

end Urb
