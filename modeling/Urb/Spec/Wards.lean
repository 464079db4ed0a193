import Urb.Spec.Forwarded
import Urb.Spec.Release

/-!
# One slave and the handlers

What `launch_tasks`, `register_executor`, `kill_task` and `status_update` do to one slave that runs
command executors: to the flags of its executors, to its place in the list of deletions and to the
place-holders that are mapped to it. `State.yard` has what decides about all slaves, `State.ward`
what decides about one.
-/

namespace Urb

open AList (lookup_insert_ne lookup_isSome lookup_insert)
open Option (isSome_iff_exists)
open EStateM (Stays Triple bind_apply pure_apply throw_apply)

/-! ## The slaves and the executors of one of them -/

/-- What decides about the slaves of the framework. -/
structure Yard where
  tracking : Tracking
  offerEvent : Bool
  maxRejectedOffers : Option Nat
  slaveDict : Option (Dict Slave)
  placeholderToSlave : Dict String
  /-- the slaves that are queued for removal -/
  removals : List DeleteElement

def State.yard (s : State) : Yard where
  tracking := s.tracking
  offerEvent := s.framework.offerEvent
  maxRejectedOffers := s.framework.config.maxRejectedOffers
  slaveDict := s.framework.slaveDict
  placeholderToSlave := s.framework.placeholderToSlave
  removals := s.deleteElements.filter (·.dict = .slaves)

/-- What a slave is to its command executors: `active` has the flags of those that there are. -/
structure Crew where
  isCommandExecutor : Bool
  taskCount : Int
  active : String → Option Bool

def Slave.crew (x : Slave) : Crew where
  isCommandExecutor := x.isCommandExecutor
  taskCount := x.taskCount
  active taskId := (x.commandExecutors.lookup taskId).map (·.active)

/-- What decides about one slave. -/
structure Ward where
  tracking : Tracking
  offerEvent : Bool
  maxRejectedOffers : Option Nat
  hasSlaves : Bool
  crew : Option Crew
  removal : Bool
  placeholderToSlave : Dict String

def Yard.ward (slaveId : String) (y : Yard) : Ward where
  tracking := y.tracking
  offerEvent := y.offerEvent
  maxRejectedOffers := y.maxRejectedOffers
  hasSlaves := y.slaveDict.isSome
  crew := ((y.slaveDict.getD ∅).lookup slaveId).map Slave.crew
  removal := decide (⟨.slaves, slaveId⟩ ∈ y.removals)
  placeholderToSlave := y.placeholderToSlave

def State.ward (slaveId : String) (s : State) : Ward := s.yard.ward slaveId

variable {slaveId : String}

theorem ward_removal (s : State) :
    (s.ward slaveId).removal = decide (⟨.slaves, slaveId⟩ ∈ s.deleteElements) := by
  simp [State.ward, Yard.ward, State.yard]

/-! ### Assignments -/

theorem yard_modifyTask (taskId : String) (g : TaskRecord → TaskRecord) (s : State) :
    State.yard { s with framework := s.framework.modifyTask taskId g } = s.yard := by
  obtain ⟨d, hd⟩ := s.framework.exists_modifyTask taskId g
  simp only [State.yard, hd]

theorem yard_addDeleteElement {d : DictRef} (hd : d ≠ .slaves) (k : String) (s : State) :
    State.yard { s with deleteElements := s.deleteElements ++ [⟨d, k⟩] } = s.yard := by
  simp [State.yard, hd]

theorem ward_withSlave {k : String} {x : Slave} {s : State}
    (hx : s.framework.slaves.lookup k = some x) (x' : Slave) :
    (s.withSlave k x').ward slaveId =
      { s.ward slaveId with
        crew := if slaveId = k then some x'.crew else (s.ward slaveId).crew } := by
  have hdict : s.framework.slaveDict.isSome := by
    cases hd : s.framework.slaveDict with
    | none => simp [Framework.slaves, hd] at hx
    | some d => rfl
  have hcrew : ((s.framework.slaves.insert k x').lookup slaveId).map Slave.crew =
      if slaveId = k then some x'.crew else (s.ward slaveId).crew := by
    split
    · rename_i heq
      rw [heq, lookup_insert]
      rfl
    · rename_i hne
      rw [lookup_insert_ne hne]
      rfl
  simp only [State.ward, Yard.ward, State.yard, Framework.setSlave, Option.isSome_some, hdict,
    Option.getD_some, hcrew]
  rfl

theorem ward_modifySlave (k : String) {g : Slave → Slave} (hg : ∀ x, (g x).crew = x.crew)
    (s : State) :
    State.ward slaveId { s with framework := s.framework.modifySlave k g } = s.ward slaveId := by
  cases hx : s.framework.slaves.lookup k with
  | none => simp only [Framework.modifySlave, hx]
  | some x =>
    have hset : s.framework.modifySlave k g = s.framework.setSlave k (g x) := by
      simp only [Framework.modifySlave, hx]
    rw [hset, ward_withSlave hx, hg]
    split
    · rename_i heq
      have hcrew : (s.ward slaveId).crew = some x.crew := by
        show (s.framework.slaves.lookup slaveId).map Slave.crew = _
        rw [heq, hx]
        rfl
      rw [← hcrew]
    · rfl

theorem ward_modifySlave_ne {k : String} (hk : slaveId ≠ k) (g : Slave → Slave) (s : State) :
    State.ward slaveId { s with framework := s.framework.modifySlave k g } = s.ward slaveId := by
  cases hx : s.framework.slaves.lookup k with
  | none => simp only [Framework.modifySlave, hx]
  | some x =>
    have hset : s.framework.modifySlave k g = s.framework.setSlave k (g x) := by
      simp only [Framework.modifySlave, hx]
    rw [hset, ward_withSlave hx, if_neg hk]

theorem ward_addDeleteElement_ne {k : String} (hk : slaveId ≠ k) (s : State) :
    State.ward slaveId { s with deleteElements := s.deleteElements ++ [⟨.slaves, k⟩] } =
      s.ward slaveId := by
  simp [State.ward, Yard.ward, State.yard, hk]

theorem ward_queueRemoval (s : State) :
    State.ward slaveId { s with deleteElements := s.deleteElements ++ [⟨.slaves, slaveId⟩] } =
      { s.ward slaveId with removal := true } := by
  simp [State.ward, Yard.ward, State.yard]

/-! ## Code that returns and leaves the slaves alone -/

section Stays

variable {y : Yard} {r : Ward}

theorem Yard.stays_emit (e : Effect) : Stays (·.yard = y) (emit e) := .modify fun _ h => h

theorem Yard.stays_modifyTask (taskId : String) (g : TaskRecord → TaskRecord) :
    Stays (·.yard = y) (modifyFramework (·.modifyTask taskId g)) :=
  .modify fun s h => (yard_modifyTask taskId g s).trans h

theorem Yard.stays_addDeleteElement {d : DictRef} (hd : d ≠ .slaves) (k : String) :
    Stays (·.yard = y) (addDeleteElement d k) :=
  .modify fun s h => (yard_addDeleteElement hd k s).trans h

theorem Yard.stays_retry (entry : Entry) (request : Request) :
    Stays (·.yard = y) (retry entry request) := by
  cases entry with
  | queue => exact .modify fun _ h => h
  | http => exact .pure _

theorem Yard.stays_runTask (channel taskId : String) :
    Stays (·.yard = y) (runTask channel taskId) :=
  .bind (stays_emit _) fun _ => stays_modifyTask _ _

theorem Yard.stays_sendStatusUpdate (taskId : String) (state : TaskState) (k : Option String) :
    Stays (·.yard = y) (sendStatusUpdate taskId state k) :=
  .get_bind fun _ _ => .ite (fun _ => .pure _) fun _ => stays_emit _

theorem Yard.stays_setOfferEvent (hevent : y.offerEvent = true) :
    Stays (·.yard = y) setOfferEvent := by
  refine .get_bind fun s hs => .ite (fun _ => stays_emit _) fun hnone => ?_
  rw [← hs] at hevent
  exact absurd hevent hnone

theorem Yard.stays_scaleUp (env : Env) (scaleCount : Option Nat) :
    Stays (·.yard = y) (scaleUp env scaleCount) := by
  refine .get_bind fun s _ => .ite (fun _ => .pure _) fun _ => .bind (.get_bind fun s' _ => ?_)
    fun _ => .bind (.modify fun _ h => h) fun _ => .pure _
  split
  · exact .bind (stays_emit _) fun _ => .pure _
  · exact .pure _

theorem Yard.stays_ward {α : Type} {m : Handler α} (h : ∀ y, Stays (·.yard = y) m) :
    Stays (·.ward slaveId = r) m :=
  Stays.of_part (Q := fun y : Yard => y.ward slaveId = r) fun y _ => h y

theorem Ward.stays_modifySlave (k : String) {g : Slave → Slave} (hg : ∀ x, (g x).crew = x.crew) :
    Stays (·.ward slaveId = r) (modifyFramework (·.modifySlave k g)) :=
  .modify fun s h => (ward_modifySlave k hg s).trans h

end Stays

/-! ## An executor that registers -/

/-- `register_executor` can read the records of all tasks: each has its id, and one in docker names
    its slave in `slave_id`. -/
structure Framework.Readable (f : Framework) : Prop where
  taskDict : f.taskDict.isSome
  strayTask : f.strayTask = none
  hasTaskId : ∀ k r, f.tasks.lookup k = some r → r.taskInfo.hasTaskId = true
  slaveId : ∀ k r, f.tasks.lookup k = some r → r.taskInfo.container = some .docker →
    r.taskInfo.slaveId.isSome

theorem Framework.Readable.modifySlave {f : Framework} (h : f.Readable) (k : String)
    (g : Slave → Slave) : (f.modifySlave k g).Readable := by
  obtain ⟨d, hd⟩ := f.exists_modifySlave k g
  rw [hd]
  exact ⟨h.taskDict, h.strayTask, h.hasTaskId, h.slaveId⟩

section Register

variable {env : Env} {m : RegisterExecutorMessage} {r : Ward}

theorem crew_setChannel (channel taskId : String) (x : Slave) :
    (match x.commandExecutors.lookup taskId with
      | some e => { x with commandExecutors :=
          x.commandExecutors.insert taskId { e with channel := some channel } }
      | none => x).crew = x.crew := by
  cases he : x.commandExecutors.lookup taskId with
  | none => rfl
  | some e =>
    simp only [Slave.crew, Crew.mk.injEq, true_and]
    funext t
    by_cases ht : t = taskId
    · rw [ht, lookup_insert, he]
      rfl
    · rw [lookup_insert_ne ht]

theorem startTask_ward (k jobId : String) (isCommandExecutor : Bool) {task : TaskRecord}
    (hid : task.taskInfo.hasTaskId = true) :
    Stays (·.ward slaveId = r) (startTask .queue m k jobId isCommandExecutor task) := by
  have hrun : ∀ taskId, Stays (·.ward slaveId = r) (runTask m.channel taskId) :=
    fun _ => Yard.stays_ward fun _ => Yard.stays_runTask _ _
  refine .ite (fun _ => ?_) fun _ => .pure _
  rw [if_pos hid]
  refine .ite (fun _ => .ite (fun _ => ?_) fun _ => .pure _) fun _ => hrun _
  exact .bind (Ward.stays_modifySlave _ (crew_setChannel _ _)) fun _ => hrun _

theorem startTasks_ward (k jobId : String) (isCommandExecutor : Bool)
    {entries : List (Sigma fun _ : String => TaskRecord)}
    (hids : ∀ e ∈ entries, e.2.taskInfo.hasTaskId = true) :
    Stays (·.ward slaveId = r) (startTasks .queue m k jobId isCommandExecutor entries) := by
  induction entries with
  | nil => exact .pure _
  | cons e rest ih =>
    exact .bind (startTask_ward k jobId isCommandExecutor (hids e List.mem_cons_self)) fun _ =>
      ih fun e' he' => hids e' (List.mem_cons_of_mem _ he')

theorem taskInDocker_ward (k : String) {entries : List (Sigma fun _ : String => TaskRecord)}
    (hnamed : ∀ e ∈ entries, e.2.taskInfo.container = some .docker →
      e.2.taskInfo.slaveId.isSome) :
    Stays (·.ward slaveId = r) (taskInDocker k entries) := by
  induction entries with
  | nil => exact .pure _
  | cons e rest ih =>
    have ih := ih fun e' he' => hnamed e' (List.mem_cons_of_mem _ he')
    refine .ite (fun hdocker => .bind ?_ fun _ => .bind ih fun _ => .pure _) fun _ => ih
    obtain ⟨id, hid⟩ := isSome_iff_exists.mp (hnamed e List.mem_cons_self hdocker)
    rw [hid]
    exact .pure id

theorem registerOnSlave_ward (k : String) (x : Slave) :
    Triple (fun s : State => s.ward slaveId = r ∧ s.framework.Readable)
      (registerOnSlave env .queue m k x) (fun _ s => s.ward slaveId = r) (fun _ => False) := by
  refine .bind (R := fun _ s => s.ward slaveId = r ∧ s.framework.Readable) ?_ fun _ => ?_
  · refine .bind (.modify fun s h => ?_) fun _ => .modify fun _ h => h
    refine ⟨Eq.trans ?_ h.1, h.2.modifySlave k _⟩
    exact ward_modifySlave k (g := ({ · with executorChannel := some m.channel })) (fun _ => rfl) s
  refine .get_bind fun s ⟨hward, hread⟩ => ?_
  obtain ⟨d, hd⟩ := isSome_iff_exists.mp hread.taskDict
  have hentries : Triple (· = s) taskEntries
      (fun entries s' => entries = s.framework.tasks.entries ∧ s' = s) (fun _ => False) := by
    refine .get_bind fun s' hs' => ?_
    subst hs'
    simp only [hread.strayTask]
    exact .pure fun _ h => ⟨rfl, h⟩
  have hlookup : ∀ e ∈ s.framework.tasks.entries, s.framework.tasks.lookup e.1 = some e.2 :=
    fun e he => AList.mem_lookup_iff.mpr he
  rw [hd]
  refine .bind (R := fun _ s' => s' = s) (.pure fun _ h => h) fun _ => .bind hentries ?_
  rintro entries s' ⟨rfl, rfl⟩
  have hdocker : Stays (·.ward slaveId = r) (taskInDocker k s'.framework.tasks.entries) :=
    taskInDocker_ward k fun e he => hread.slaveId e.1 e.2 (hlookup e he)
  have hscale : Stays (·.ward slaveId = r) (scaleUp env none) :=
    Yard.stays_ward fun _ => Yard.stays_scaleUp _ _
  refine Stays.bind ?_ (fun _ => .bind hdocker fun _ => .ite (fun _ => .pure _) fun _ =>
    .bind hscale fun _ => .pure _) s' hward
  split
  · exact startTasks_ward k _ _ fun e he => hread.hasTaskId e.1 e.2 (hlookup e he)
  · exact .pure _

/-- Whether `register_executor` returns, and the slave afterwards. -/
theorem registerExecutor_ward (env : Env) (m : RegisterExecutorMessage) {s : State}
    (hdict : s.framework.slaveDict.isSome) (hread : s.framework.Readable) :
    ∃ a s', registerExecutor env .queue m s = .ok a s' ∧ s'.ward slaveId = s.ward slaveId := by
  have hretry : Stays (·.ward slaveId = s.ward slaveId) (retry .queue (.registerExecutor m)) :=
    Yard.stays_ward fun _ => Yard.stays_retry _ _
  have hok : Triple (· = s) (registerExecutor env .queue m)
      (fun _ s' => s'.ward slaveId = s.ward slaveId) (fun _ => False) := by
    refine .get_bind fun s' hs' => .ite (fun _ => ?_) fun _ => .pure fun _ h => by rw [h, hs']
    subst hs'
    obtain ⟨d, hd⟩ := isSome_iff_exists.mp hdict
    rw [hd]
    refine .bind (R := fun _ s => s = s') (.pure fun _ h => h) fun _ => ?_
    split
    · exact fun s h => hretry s (by rw [h])
    · refine .ite (fun _ s h => hretry s (by rw [h])) fun _ s h => ?_
      subst h
      exact registerOnSlave_ward _ _ s ⟨rfl, hread⟩
  exact hok.eq_ok rfl

end Register

/-! ## A task that is killed -/

section Kill

variable {env : Env} {s : State} {t : TaskInfo} {k : String} {r : Ward}

/-- The slave, unless it runs command executors, can take back the resources of the task. -/
def Slave.Creditable (env : Env) (t : TaskInfo) (x : Slave) : Prop :=
  x.isCommandExecutor = false → Adjustable env.portAdd x (t.resources.getD [])

theorem creditSlave_ward {x : Slave} (hx : s.framework.slaves.lookup k = some x)
    (hk : slaveId ≠ k) :
    Triple (· = s) (creditSlave env k t)
      (fun _ s' => s'.ward slaveId = s.ward slaveId ∧ k ∈ s'.framework.slaves ∧
        Adjustable env.portAdd x (t.resources.getD []))
      (fun s' => s'.ward slaveId = s.ward slaveId ∧
        ¬Adjustable env.portAdd x (t.resources.getD [])) := by
  have hother : ∀ x', (s.withSlave k x').ward slaveId = s.ward slaveId := by
    intro x'
    rw [ward_withSlave hx, if_neg hk]
  refine (creditSlave_spec env k t s).weaken (fun _ h => h) ?_ ?_
  · rintro _ s' ⟨x1, x2, hx1, -, hadjust, rfl⟩
    cases hx.symm.trans hx1
    exact ⟨hother _, (AList.mem_insert _).mpr (Or.inl rfl), hadjust⟩
  · rintro s' (⟨hnone, -⟩ | ⟨x1, x2, -, hx1, -, -, hadjust, rfl⟩)
    · rw [hx] at hnone
      cases hnone
    · cases hx.symm.trans hx1
      exact ⟨hother _, hadjust⟩

theorem creditUnlessCommand_ward {x : Slave} (hx : s.framework.slaves.lookup k = some x)
    (hk : slaveId = k → x.isCommandExecutor = true) :
    Triple (· = s) (creditUnlessCommand env k t)
      (fun _ s' => s'.ward slaveId = s.ward slaveId ∧ k ∈ s'.framework.slaves ∧
        x.Creditable env t)
      (fun s' => s'.ward slaveId = s.ward slaveId ∧ ¬x.Creditable env t) := by
  refine .get_bind fun s' hs' => ?_
  subst hs'
  rw [hx]
  refine .bind (R := fun a s => a = x ∧ s = s') (.pure fun _ h => ⟨rfl, h⟩) fun a => ?_
  refine .ite (fun hcommand => .pure fun s h => ?_) fun hcommand => ?_
  · obtain ⟨rfl, rfl⟩ := h
    have hmem : k ∈ s.framework.slaves := lookup_isSome.mp (Option.isSome_of_eq_some hx)
    exact ⟨rfl, hmem, fun hcustom => absurd hcommand (by simp [hcustom])⟩
  · rintro s ⟨rfl, rfl⟩
    have hne : slaveId ≠ k := fun heq => hcommand (hk heq)
    have hcredit : Triple (· = s) (creditSlave env k t) _ _ := creditSlave_ward hx hne
    refine hcredit.weaken (fun _ h => h) (fun _ s h => ⟨h.1, h.2.1, fun _ => h.2.2⟩)
      (fun s h => ⟨h.1, fun hok => h.2 (hok (by simpa using hcommand))⟩) s rfl

theorem sendKillTask_ward (taskId : String) :
    Triple (fun s => s.ward slaveId = r ∧ k ∈ s.framework.slaves) (sendKillTask k taskId)
      (fun _ s => s.ward slaveId = r) (fun _ => False) := by
  refine .get_bind fun s ⟨hward, hmem⟩ => ?_
  obtain ⟨x, hx⟩ := isSome_iff_exists.mp (lookup_isSome.mpr hmem)
  rw [hx]
  refine .bind (R := fun _ s => s.ward slaveId = r) (.pure fun _ h => h ▸ hward) fun x => ?_
  have hemit : ∀ e, Stays (·.ward slaveId = r) (do emit e; pure true : Handler Bool) :=
    fun e => Yard.stays_ward fun _ => .bind (Yard.stays_emit e) fun _ => .pure true
  dsimp only
  split
  · exact hemit _
  · exact .ite (fun _ => hemit _) fun _ => .pure fun _ h => h

theorem slaves_of_yard {s s' : State} (h : s'.yard = s.yard) :
    s'.framework.slaves = s.framework.slaves :=
  congrArg (fun y : Yard => y.slaveDict.getD ∅) h

theorem resolveSlave_of_yard {s s' : State} (h : s'.yard = s.yard) :
    s'.framework.resolveSlave = s.framework.resolveSlave := by
  have hplaceholders : s'.framework.placeholderToSlave = s.framework.placeholderToSlave :=
    congrArg Yard.placeholderToSlave h
  funext k
  simp only [Framework.resolveSlave, slaves_of_yard h, hplaceholders]

/-- The slave that the record of a task names can take back what the task used. -/
def TaskRecord.Creditable (env : Env) (f : Framework) (task : TaskRecord) : Prop :=
  ∀ k x, task.taskInfo.killSlave.bind f.resolveSlave = some k → f.slaves.lookup k = some x →
    x.Creditable env task.taskInfo

theorem killKnownTask_ward (taskId : String) (task : TaskRecord)
    (hevent : s.framework.offerEvent = true)
    (hcommand : ∀ x, s.framework.slaves.lookup slaveId = some x → x.isCommandExecutor = true) :
    Triple (· = s) (killKnownTask env taskId task)
      (fun _ s' => s'.ward slaveId = s.ward slaveId ∧ task.Creditable env s.framework)
      (fun s' => s'.ward slaveId = s.ward slaveId ∧ ¬task.Creditable env s.framework) := by
  have hset : Stays (·.ward slaveId = s.ward slaveId) setOfferEvent :=
    Stays.of_part (Q := fun y : Yard => y.ward slaveId = s.ward slaveId) fun y hy =>
      Yard.stays_setOfferEvent ((congrArg Ward.offerEvent hy).trans hevent)
  refine .get_bind fun s' hs' => ?_
  subst hs'
  -- until the slave is looked up, only the record of the task, the queue and the log change
  refine .bind (R := fun _ s1 => s1.yard = s'.yard)
    (.modify fun s1 h1 => h1 ▸ yard_modifyTask _ _ _) fun _ => ?_
  refine .bind (Yard.stays_addDeleteElement (by decide) taskId).triple fun _ => ?_
  refine .bind (Yard.stays_sendStatusUpdate _ _ _).triple fun _ => .get_bind fun s1 h1 => ?_
  dsimp only
  rw [resolveSlave_of_yard h1]
  have hslaves := slaves_of_yard h1
  have hward : s1.ward slaveId = s'.ward slaveId := congrArg (Yard.ward slaveId) h1
  cases hk : task.taskInfo.killSlave.bind s'.framework.resolveSlave with
  | none =>
    have hcredit : task.Creditable env s'.framework := fun k x hk' => by rw [hk] at hk'; cases hk'
    have hdelete : Stays (·.ward slaveId = s'.ward slaveId) (deletePendingJob task) := by
      unfold deletePendingJob
      split
      · exact .ite (fun _ => .pure _) fun _ => Yard.stays_ward fun _ => Yard.stays_emit _
      · exact .pure _
    have hrest : Stays (·.ward slaveId = s'.ward slaveId)
        (do deletePendingJob task; setOfferEvent; pure true) :=
      .bind hdelete fun _ => .bind hset fun _ => .pure _
    exact Triple.weaken hrest (fun s h => by rw [h, hward]) (fun _ _ h => ⟨h, hcredit⟩)
      fun _ h => h.elim
  | some k =>
    obtain ⟨id, -, hresolve⟩ := Option.bind_eq_some_iff.mp hk
    obtain ⟨x, hx⟩ := Framework.resolveSlave_mem hresolve
    have hx1 : s1.framework.slaves.lookup k = some x := hslaves ▸ hx
    have hcrew : slaveId = k → x.isCommandExecutor = true := fun heq => hcommand x (heq ▸ hx)
    have hiff : task.Creditable env s'.framework ↔ x.Creditable env task.taskInfo := by
      constructor
      · exact fun h => h k x hk hx
      · intro h k' x' hk' hx'
        cases hk.symm.trans hk'
        cases hx.symm.trans hx'
        exact h
    rw [hiff]
    have hcredit : Triple (· = s1) (creditUnlessCommand env k task.taskInfo) _ _ :=
      creditUnlessCommand_ward hx1 hcrew
    rw [hward] at hcredit
    by_cases hok : x.Creditable env task.taskInfo
    · have hend : Stays (·.ward slaveId = s'.ward slaveId)
          (do setOfferEvent; pure true : Handler Bool) := .bind hset fun _ => .pure _
      refine .bind (R := fun _ s => s.ward slaveId = s'.ward slaveId ∧ k ∈ s.framework.slaves)
        (hcredit.weaken (fun _ h => h) (fun _ _ h => ⟨h.1, h.2.1⟩) fun _ h => absurd hok h.2)
        fun _ => .bind (R := fun _ s => s.ward slaveId = s'.ward slaveId) ?_ fun done => ?_
      · exact (sendKillTask_ward taskId).weaken (fun _ h => h) (fun _ _ h => h) fun _ h => h.elim
      · refine .ite (fun _ => ?_) fun _ => .pure fun _ h => ⟨h, hok⟩
        exact Triple.weaken hend (fun _ h => h) (fun _ _ h => ⟨h, hok⟩) fun _ h => h.elim
    · exact .bind (R := fun _ _ => False) (hcredit.weaken (fun _ h => h)
        (fun _ _ h => absurd h.2.2 hok) fun _ h => h) fun _ _ h => h.elim

/-- What `kill_task` does to the slave: nothing. It raises if the slave of the task, which is then
    another one, cannot take back its resources. -/
theorem killTask_ward (taskId : String) (hactive : s.tracking = .active)
    (hevent : s.framework.offerEvent = true)
    (hcommand : ∀ x, s.framework.slaves.lookup slaveId = some x → x.isCommandExecutor = true) :
    Triple (· = s) (killTask env .queue taskId)
      (fun _ s' => s'.ward slaveId = s.ward slaveId ∧
        ∀ task ∈ s.framework.tasks.lookup taskId, task.Creditable env s.framework)
      (fun s' => s'.ward slaveId = s.ward slaveId ∧
        ∃ task ∈ s.framework.tasks.lookup taskId, ¬task.Creditable env s.framework) := by
  have hretry : Stays (·.ward slaveId = s.ward slaveId) (retry .queue (.killTask taskId)) :=
    Yard.stays_ward fun _ => Yard.stays_retry _ _
  refine .get_bind fun s' hs' => ?_
  subst hs'
  rw [if_pos hactive]
  refine .bind (R := fun _ s => s.ward slaveId = s'.ward slaveId ∧
    ∀ task ∈ s'.framework.tasks.lookup taskId, task.Creditable env s'.framework)
    (.get_bind fun s1 h1 => ?_) fun done => .ite (fun _ => .pure fun _ h => h) fun _ s h => ?_
  · subst h1
    dsimp only
    cases htask : s1.framework.tasks.lookup taskId with
    | none => exact .pure fun s h => ⟨by rw [h], fun task ht => by cases ht⟩
    | some task =>
      refine (killKnownTask_ward taskId task hevent hcommand).weaken (fun _ h => h)
        (fun _ s h => ⟨h.1, fun task' ht => ?_⟩) fun s h => ⟨h.1, task, rfl, h.2⟩
      cases ht
      exact h.2
  · obtain ⟨_, s1, hrun, hward⟩ := Triple.eq_ok hretry h.1
    rw [hrun]
    exact ⟨hward, h.2⟩

end Kill

/-! ## A task that ends -/

/-- The executor of the task is not active any more. -/
def Crew.retire (taskId : String) (c : Crew) : Crew :=
  { c with active := fun t => if t = taskId then some false else c.active t }

/-- No executor beside that of the task is active. -/
def Crew.Last (taskId : String) (c : Crew) : Prop := ∀ t, t ≠ taskId → c.active t ≠ some true

/-- The executor of the task retires, and the slave is queued for removal with the last one. -/
def Ward.Retired (taskId : String) (w w' : Ward) : Prop :=
  ∃ c removal, w.crew = some c ∧ (removal = true ↔ c.Last taskId) ∧
    w' = { w with crew := some (c.retire taskId), removal := w.removal || removal }

/-- A task can be released: its command executor has registered, or the slave, if it has another
    executor, can take back the resources. -/
def Slave.Releasable (env : Env) (taskId : String) (t : TaskInfo) (x : Slave) : Prop :=
  if x.isCommandExecutor then ∃ e, x.commandExecutors.lookup taskId = some e ∧ e.channel.isSome
  else Adjustable env.portAdd x (t.resources.getD [])

def StatusUpdate.Releasable (env : Env) (u : StatusUpdate) (s : State) : Prop :=
  ∀ task k x, Releases u s task k x → x.Releasable env u.taskId task.taskInfo

section Update

variable {env : Env} {s : State} {t : TaskInfo} {taskId k : String} {x : Slave} {r : Ward}

theorem forgetTask_ward (taskId : String) :
    Stays (·.ward slaveId = r) (do
      let now := (← get).clock
      modifyFramework (·.modifyTask taskId ({ · with endTime := some now }))
      addDeleteElement .tasks taskId : Handler Unit) :=
  Yard.stays_ward fun _ => .get_bind fun _ _ => .bind (Yard.stays_modifyTask _ _) fun _ =>
    Yard.stays_addDeleteElement (by decide) _

theorem releaseCommand_ok {e : CommandExecutor} (hx : s.framework.slaves.lookup k = some x)
    (he : x.commandExecutors.lookup taskId = some e) (hchannel : e.channel.isSome) :
    let executors := x.commandExecutors.insert taskId { e with active := false }
    let s1 := s.withSlave k { x with commandExecutors := executors }
    releaseCommand k taskId x s = .ok ⟨⟩ (if executors.entries.all (!·.2.active) then
      { s1 with deleteElements := s1.deleteElements ++ [⟨.slaves, k⟩] } else s1) := by
  intro executors s1
  obtain ⟨channel, hchannel⟩ := isSome_iff_exists.mp hchannel
  have hset : s.framework.modifySlave k ({ · with commandExecutors := executors }) =
      s.framework.setSlave k { x with commandExecutors := executors } := by
    simp only [Framework.modifySlave, hx]
  have hrun : releaseCommand k taskId x s =
      (if executors.entries.all (!·.2.active) then addDeleteElement .slaves k else pure ()) s1 := by
    have hread : (orRaise e.channel (.keyError "channel") : Handler String) = pure channel := by
      rw [hchannel]
      rfl
    simp only [releaseCommand, he, orRaise, bind_apply, pure_apply] at hread ⊢
    simp only [hread, pure_apply, modifyFramework, EStateM.modify_apply]
    rw [hset]
  rw [hrun]
  split
  · rfl
  · rfl

theorem releaseCommand_raises
    (h : ¬∃ e, x.commandExecutors.lookup taskId = some e ∧ e.channel.isSome) :
    ∃ err, releaseCommand k taskId x s = .error err s := by
  cases he : x.commandExecutors.lookup taskId with
  | none =>
    refine ⟨.keyError taskId, ?_⟩
    simp only [releaseCommand, he, orRaise, bind_apply, throw_apply]
  | some e =>
    cases hchannel : e.channel with
    | none =>
      refine ⟨.keyError "channel", ?_⟩
      simp only [releaseCommand, he, hchannel, orRaise, bind_apply, pure_apply,
        throw_apply]
    | some channel => exact absurd ⟨e, he, by rw [hchannel]; rfl⟩ h

theorem crew_retire (e : CommandExecutor) :
    ({ x with commandExecutors :=
        x.commandExecutors.insert taskId { e with active := false } } : Slave).crew =
      x.crew.retire taskId := by
  simp only [Slave.crew, Crew.retire, Crew.mk.injEq, true_and]
  funext t
  split
  · rename_i heq
    rw [heq, lookup_insert]
    rfl
  · rename_i hne
    rw [lookup_insert_ne hne]

theorem all_inactive_iff (e : CommandExecutor) :
    (x.commandExecutors.insert taskId { e with active := false }).entries.all
      (!·.2.active) = true ↔ x.crew.Last taskId := by
  rw [List.all_eq_true]
  constructor
  · intro hall t ht hactive
    obtain ⟨e', he', hflag⟩ := Option.map_eq_some_iff.mp hactive
    have hmem : (⟨t, e'⟩ : Sigma fun _ : String => CommandExecutor) ∈
        (x.commandExecutors.insert taskId { e with active := false }).entries :=
      AList.mem_lookup_iff.mp (by rw [lookup_insert_ne ht]; exact he')
    have hnot := hall _ hmem
    simp [hflag] at hnot
  · rintro hlast ⟨t, e'⟩ hmem
    have he' := AList.mem_lookup_iff.mpr hmem
    by_cases ht : t = taskId
    · subst ht
      rw [lookup_insert] at he'
      cases he'
      rfl
    · rw [lookup_insert_ne ht] at he'
      have hnot := hlast t ht
      cases hflag : e'.active with
      | false => rfl
      | true =>
        refine absurd ?_ hnot
        show (x.commandExecutors.lookup t).map (·.active) = some true
        rw [he', Option.map_some, hflag]

theorem releaseTask_ward_ne (hx : s.framework.slaves.lookup k = some x) (hk : slaveId ≠ k) :
    Triple (· = s) (releaseTask env k taskId x t)
      (fun _ s' => s'.ward slaveId = s.ward slaveId ∧ x.Releasable env taskId t)
      (fun s' => s'.ward slaveId = s.ward slaveId ∧ ¬x.Releasable env taskId t) := by
  have hrelease : Triple (· = s) (if x.isCommandExecutor then releaseCommand k taskId x
      else releaseCustom env k t)
      (fun _ s' => s'.ward slaveId = s.ward slaveId ∧ x.Releasable env taskId t)
      (fun s' => s'.ward slaveId = s.ward slaveId ∧ ¬x.Releasable env taskId t) := by
    unfold Slave.Releasable
    split
    · rintro _ rfl
      by_cases hfound : ∃ e, x.commandExecutors.lookup taskId = some e ∧ e.channel.isSome
      · obtain ⟨e, he, hchannel⟩ := hfound
        rw [releaseCommand_ok hx he hchannel]
        refine ⟨?_, e, he, hchannel⟩
        split
        · rw [ward_addDeleteElement_ne hk, ward_withSlave hx, if_neg hk]
        · rw [ward_withSlave hx, if_neg hk]
      · obtain ⟨err, hrun⟩ := releaseCommand_raises (k := k) hfound
        rw [hrun]
        exact ⟨rfl, hfound⟩
    · refine .bind (creditSlave_ward hx hk) fun _ => .get_bind fun s' h => ?_
      refine .ite (fun _ => .modify fun s1 h1 => ?_) fun _ => .pure fun s1 h1 => ?_
      · subst h1
        exact ⟨h.1, h.2.2⟩
      · subst h1
        exact ⟨h.1, h.2.2⟩
  refine .bind hrelease fun _ s' h => ?_
  obtain ⟨_, s1, hrun, hward⟩ := Triple.eq_ok (forgetTask_ward taskId) h.1
  rw [hrun]
  exact ⟨hward, h.2⟩

theorem releaseTask_ward (hx : s.framework.slaves.lookup slaveId = some x)
    (hcommand : x.isCommandExecutor = true) :
    Triple (· = s) (releaseTask env slaveId taskId x t)
      (fun _ s' => (s.ward slaveId).Retired taskId (s'.ward slaveId) ∧
        x.Releasable env taskId t)
      (fun s' => s'.ward slaveId = s.ward slaveId ∧ ¬x.Releasable env taskId t) := by
  have hcrew : (s.ward slaveId).crew = some x.crew := congrArg (Option.map Slave.crew) hx
  have hrelease : Triple (· = s) (releaseCommand slaveId taskId x)
      (fun _ s' => (s.ward slaveId).Retired taskId (s'.ward slaveId) ∧ x.Releasable env taskId t)
      (fun s' => s'.ward slaveId = s.ward slaveId ∧ ¬x.Releasable env taskId t) := by
    unfold Slave.Releasable
    rw [if_pos hcommand]
    rintro _ rfl
    by_cases hfound : ∃ e, x.commandExecutors.lookup taskId = some e ∧ e.channel.isSome
    · obtain ⟨e, he, hchannel⟩ := hfound
      rw [releaseCommand_ok hx he hchannel]
      refine ⟨⟨x.crew, _, hcrew, all_inactive_iff e, ?_⟩, e, he, hchannel⟩
      cases (x.commandExecutors.insert taskId { e with active := false }).entries.all
          (!·.2.active) with
      | false =>
        rw [if_neg Bool.false_ne_true, ward_withSlave hx, if_pos rfl, crew_retire, Bool.or_false]
      | true =>
        rw [if_pos rfl, ward_queueRemoval, ward_withSlave hx, if_pos rfl, crew_retire,
          Bool.or_true]
    · obtain ⟨err, hrun⟩ := releaseCommand_raises (k := slaveId) hfound
      rw [hrun]
      exact ⟨rfl, hfound⟩
  rw [releaseTask, if_pos hcommand]
  refine .bind hrelease fun _ s' h => ?_
  obtain ⟨_, s1, hrun, hward⟩ := Triple.eq_ok (forgetTask_ward taskId) (Eq.refl (s'.ward slaveId))
  rw [hrun]
  exact ⟨hward ▸ h.1, h.2⟩

/-- What an update does to the slave: nothing, unless it releases a task there. -/
def UpdatesWard (env : Env) (slaveId : String) (u : StatusUpdate) (s s' : State) : Prop :=
  u.Releasable env s ∧
    (∀ task x, Releases u s task slaveId x →
      (s.ward slaveId).Retired u.taskId (s'.ward slaveId)) ∧
    ((∀ task x, ¬Releases u s task slaveId x) → s'.ward slaveId = s.ward slaveId)

theorem UpdatesWard.of_none {u : StatusUpdate} {s s' : State}
    (hnone : ∀ task k x, ¬Releases u s task k x) (hward : s'.ward slaveId = s.ward slaveId) :
    UpdatesWard env slaveId u s s' :=
  ⟨fun task k x h => absurd h (hnone task k x), fun task x h => absurd h (hnone task slaveId x),
    fun _ => hward⟩

theorem updateOnSlave_ward {u : StatusUpdate} {task : TaskRecord} {s1 : State}
    (hyard : s1.yard = s.yard) (htask : s.framework.tasks.lookup u.taskId = some task)
    (hk : u.slave task.taskInfo = some k) (hdict : s.framework.slaveDict.isSome)
    (hcommand : ∀ x, s.framework.slaves.lookup slaveId = some x → x.isCommandExecutor = true) :
    Triple (· = s1) (updateOnSlave env u k task.taskInfo)
      (fun _ s' => UpdatesWard env slaveId u s s')
      (fun s' => s'.ward slaveId = s.ward slaveId ∧ ¬u.Releasable env s) := by
  have honly : ∀ {task' k' x}, Releases u s task' k' x → task' = task ∧ k' = k := by
    intro task' k' x h
    cases htask.symm.trans h.record
    exact ⟨rfl, Option.some.inj (h.names.symm.trans hk)⟩
  refine .bind (R := fun _ s2 => s2.yard = s.yard)
    ((Yard.stays_sendStatusUpdate _ _ _).triple.weaken (fun _ h => h ▸ hyard) (fun _ _ h => h)
      fun _ h => h) fun _ => .get_bind fun s2 h2 => ?_
  have hward : s2.ward slaveId = s.ward slaveId := congrArg (Yard.ward slaveId) h2
  have hslaveDict : s2.framework.slaveDict = s.framework.slaveDict :=
    congrArg Yard.slaveDict h2
  obtain ⟨d, hd⟩ := isSome_iff_exists.mp hdict
  have hslaves : s.framework.slaves = d := by rw [Framework.slaves, hd]; rfl
  dsimp only
  rw [hslaveDict, hd]
  refine .bind (R := fun a s => a = d ∧ s = s2) (.pure fun _ h => ⟨rfl, h⟩) fun a => ?_
  rintro s3 ⟨rfl, rfl⟩
  cases hx : a.lookup k with
  | none =>
    refine UpdatesWard.of_none (fun task' k' x h => ?_) hward
    obtain ⟨rfl, rfl⟩ := honly h
    have hnone := h.slave
    rw [hslaves, hx] at hnone
    cases hnone
  | some x =>
    have hx' : s.framework.slaves.lookup k = some x := hslaves ▸ hx
    cases hrel : u.state.releases with
    | false =>
      exact UpdatesWard.of_none (fun task' k' x h => absurd h.state (by simp [hrel])) hward
    | true =>
      have hreleases : Releases u s task k x := ⟨hrel, htask, hk, hx'⟩
      have hiff : u.Releasable env s ↔ x.Releasable env u.taskId task.taskInfo := by
        constructor
        · exact fun h => h task k x hreleases
        · intro h task' k' x' h'
          obtain ⟨rfl, rfl⟩ := honly h'
          cases hx'.symm.trans h'.slave
          exact h
      have hx3 : s3.framework.slaves.lookup k = some x := slaves_of_yard h2 ▸ hx'
      rw [hiff]
      by_cases heq : slaveId = k
      · subst heq
        have hrelease : Triple (· = s3) (releaseTask env slaveId u.taskId x task.taskInfo) _ _ :=
          releaseTask_ward hx3 (hcommand x hx')
        rw [hward] at hrelease
        refine hrelease.weaken (fun _ h => h) (fun _ s' h => ?_) (fun _ h => h) s3 rfl
        exact ⟨hiff.mpr h.2, fun _ _ _ => h.1, fun hnone => absurd hreleases (hnone task x)⟩
      · have hrelease : Triple (· = s3) (releaseTask env k u.taskId x task.taskInfo) _ _ :=
          releaseTask_ward_ne hx3 heq
        rw [hward] at hrelease
        refine hrelease.weaken (fun _ h => h) (fun _ s' h => ?_) (fun _ h => h) s3 rfl
        exact ⟨hiff.mpr h.2, fun _ _ h' => absurd (honly h').2 heq, fun _ => h.1⟩

/-- Whether `status_update` returns, and the slave afterwards. -/
theorem statusUpdate_ward (u : StatusUpdate) (hactive : s.tracking = .active)
    (hdict : s.framework.slaveDict.isSome)
    (hcommand : ∀ x, s.framework.slaves.lookup slaveId = some x → x.isCommandExecutor = true) :
    Triple (· = s) (statusUpdate env .queue u) (fun _ s' => UpdatesWard env slaveId u s s')
      (fun s' => s'.ward slaveId = s.ward slaveId ∧ ¬u.Releasable env s) := by
  have hsend : ∀ {s1 : State}, s1.yard = s.yard → (∀ task k x, ¬Releases u s task k x) →
      Triple (· = s1) (sendStatusUpdate u.taskId u.state none)
        (fun _ s' => UpdatesWard env slaveId u s s')
        (fun s' => s'.ward slaveId = s.ward slaveId ∧ ¬u.Releasable env s) := by
    intro s1 hyard hnone
    have hstays : Stays (·.yard = s.yard) (sendStatusUpdate u.taskId u.state none) :=
      Yard.stays_sendStatusUpdate _ _ _
    exact hstays.triple.weaken (fun _ h => h ▸ hyard)
      (fun _ _ h => .of_none hnone (congrArg (Yard.ward slaveId) h)) fun _ h => h
  refine .get_bind fun s' hs' => ?_
  subst hs'
  rw [if_pos hactive]
  refine .get_bind fun s1 h1 => ?_
  subst h1
  cases htask : s1.framework.tasks.lookup u.taskId with
  | none =>
    refine hsend rfl fun task k x h => ?_
    have hrecord := h.record
    rw [htask] at hrecord
    cases hrecord
  | some task =>
    let s2 : State :=
      { s1 with framework := s1.framework.modifyTask u.taskId (recordState u s1.clock) }
    refine .bind (R := fun _ s => s = s2) (.modify fun s h => by rw [h]) fun _ => ?_
    have hyard : s2.yard = s1.yard := yard_modifyTask _ _ _
    cases hk : u.slave task.taskInfo with
    | none =>
      refine hsend hyard fun task' k x h => ?_
      cases htask.symm.trans h.record
      have hnames := h.names
      rw [hk] at hnames
      cases hnames
    | some k => exact updateOnSlave_ward hyard htask hk hdict hcommand

end Update

/-! ## Tasks that are launched -/

/-- Executors for more tasks. A task that is launched again keeps its executor, and the flag. -/
def Crew.join (ids : List String) (c : Crew) : Crew :=
  { c with
    taskCount := c.taskCount + ids.length
    active := fun t => if t ∈ ids then some ((c.active t).getD true) else c.active t }

theorem Crew.join_nil (c : Crew) : c.join [] = c := by simp [Crew.join]

theorem Crew.join_join (ids ids' : List String) (c : Crew) :
    (c.join ids).join ids' = c.join (ids ++ ids') := by
  simp only [Crew.join, Crew.mk.injEq, true_and, List.length_append, List.mem_append]
  refine ⟨by push_cast; omega, ?_⟩
  funext t
  by_cases h : t ∈ ids <;> by_cases h' : t ∈ ids' <;> simp [h, h']

/-- A message can be launched: its tasks name slaves, those that are there have jobs and enough
    resources for all of their tasks, and those that run command executors have one. -/
structure LaunchFits (env : Env) (slaves : Dict Slave) (ts : List TaskInfo) : Prop where
  named : ∀ t ∈ ts, t.slave.isSome
  ready : ∀ t ∈ ts, ∀ k ∈ t.slave, isPlaceholder k = false → k ∈ slaves →
    (NamingUtility.getJobIdFromSlaveId k).isSome ∧ t.resources.isSome
  adjustable : ∀ k x, slaves.lookup k = some x → isPlaceholder k = false →
    Adjustable env.portSubtract x
      ((ts.filter (·.slave = some k)).flatMap fun t => t.resources.getD [])
  executors : ∀ k x, slaves.lookup k = some x → x.isCommandExecutor = true →
    x.commandExecutors.keys ≠ []

section Launch

variable {env : Env} {m : LaunchTasksMessage} {t : TaskInfo} {ts : List TaskInfo} {s s' : State}
  {k : String} {x : Slave} {v : LaunchVars}

/-- The only thing that has happened to the slaves is that one was replaced. -/
structure SlaveReplaced (k : String) (x' : Slave) (s s' : State) : Prop where
  lookup : ∀ k', s'.framework.slaves.lookup k' =
    if k' = k then some x' else s.framework.slaves.lookup k'
  ward : ∀ slaveId, s'.ward slaveId =
    { s.ward slaveId with crew := (s'.framework.slaves.lookup slaveId).map Slave.crew }

theorem SlaveReplaced.withSlave (hx : s.framework.slaves.lookup k = some x) (x' : Slave) :
    SlaveReplaced k x' s (s.withSlave k x') where
  lookup k' := by
    show (s.framework.slaves.insert k x').lookup k' = _
    split
    · rename_i heq
      rw [heq, lookup_insert]
    · rename_i hne
      rw [lookup_insert_ne hne]
  ward slaveId := by
    rw [ward_withSlave hx]
    show _ = { s.ward slaveId with
      crew := ((s.framework.slaves.insert k x').lookup slaveId).map Slave.crew }
    split
    · rename_i heq
      rw [heq, lookup_insert]
      rfl
    · rename_i hne
      rw [lookup_insert_ne hne]
      rfl

theorem SlaveReplaced.of_yard (h : s'.yard = s.yard) (hx : s.framework.slaves.lookup k = some x) :
    SlaveReplaced k x s s' where
  lookup k' := by
    rw [slaves_of_yard h]
    split
    · rename_i heq
      rw [heq, hx]
    · rfl
  ward slaveId := by
    rw [slaves_of_yard h]
    exact congrArg (Yard.ward slaveId) h

theorem SlaveReplaced.trans {x1 x2 : Slave} {s1 s2 : State} (h : SlaveReplaced k x1 s s1)
    (h' : SlaveReplaced k x2 s1 s2) : SlaveReplaced k x2 s s2 where
  lookup k' := by
    rw [h'.lookup, h.lookup]
    split
    · rfl
    · rfl
  ward slaveId := by rw [h'.ward, h.ward]

theorem SlaveReplaced.modifySlave (hx : s.framework.slaves.lookup k = some x) (g : Slave → Slave) :
    SlaveReplaced k (g x) s { s with framework := s.framework.modifySlave k g } := by
  have hset : s.framework.modifySlave k g = s.framework.setSlave k (g x) := by
    simp only [Framework.modifySlave, hx]
  rw [hset]
  exact .withSlave hx (g x)

theorem crew_recordExecutor (hkeys : x.commandExecutors.keys ≠ []) :
    (recordExecutor t x).crew =
      { x.crew with active := fun id =>
          if id = t.taskId then some ((x.crew.active id).getD true) else x.crew.active id } := by
  have hempty : x.commandExecutors.keys.isEmpty = false := by simp [hkeys]
  simp only [recordExecutor, hempty, Bool.and_false, Bool.false_eq_true, if_false, Bool.not_false,
    if_true]
  split
  · rename_i hmem
    obtain ⟨e, he⟩ := isSome_iff_exists.mp (lookup_isSome.mpr hmem)
    simp only [Slave.crew, Crew.mk.injEq, true_and]
    funext id
    split
    · rename_i heq
      rw [heq, he]
      rfl
    · rfl
  · rename_i hmem
    have hnone := AList.lookup_eq_none.mpr hmem
    simp only [Slave.crew, Crew.mk.injEq, true_and]
    funext id
    split
    · rename_i heq
      rw [heq, lookup_insert, hnone]
      rfl
    · rename_i hne
      rw [lookup_insert_ne hne]

theorem keys_recordExecutor
    (h : x.isCommandExecutor = true → x.commandExecutors.keys ≠ []) :
    (recordExecutor t x).isCommandExecutor = true →
      (recordExecutor t x).commandExecutors.keys ≠ [] := by
  intro hcommand
  have hfound := recordExecutor_found.mpr (fun hc hk => absurd hk (h hc)) hcommand
  exact List.ne_nil_of_mem (AList.mem_keys.mp hfound)

theorem runIfRegistered_yard (hx : s.framework.slaves.lookup k = some x) {taskId : String}
    (hfound : x.isCommandExecutor = true → taskId ∈ x.commandExecutors) :
    ∃ a s', runIfRegistered k taskId s = .ok a s' ∧ s'.yard = s.yard := by
  have hok : Triple (· = s) (runIfRegistered k taskId) (fun _ s' => s'.yard = s.yard)
      (fun _ => False) := by
    refine .get_bind fun s' hs' => ?_
    subst hs'
    rw [hx]
    refine .bind (R := fun a s => a = x ∧ s = s') (.pure fun _ h => ⟨rfl, h⟩) fun a => ?_
    refine .bind (R := fun _ s => s.yard = s'.yard) ?_ fun channel => ?_
    · refine .ite (fun hcommand => ?_) fun _ => .pure fun _ h => by rw [h.2]
      rintro s ⟨rfl, rfl⟩
      obtain ⟨e, he⟩ := isSome_iff_exists.mp (lookup_isSome.mpr (hfound hcommand))
      rw [he]
      rfl
    · cases channel with
      | none => exact Stays.pure _
      | some channel => exact Yard.stays_runTask _ _
  exact hok.eq_ok rfl

theorem launchOnSlave_replaced (m : LaunchTasksMessage) (v : LaunchVars) {jobId : String}
    {rest : List Resource} (hx : s.framework.slaves.lookup k = some x)
    (hjob : NamingUtility.getJobIdFromSlaveId k = some jobId) (hresources : t.resources.isSome)
    (hadjust : Adjustable env.portSubtract x (t.resources.getD [] ++ rest))
    (hkeys : x.isCommandExecutor = true → x.commandExecutors.keys ≠ []) :
    ∃ v' s' x', launchOnSlave env m t k v s = .ok (some v') s' ∧ SlaveReplaced k x' s s' ∧
      Adjustable env.portSubtract x' rest ∧
      (x'.isCommandExecutor = true → x'.commandExecutors.keys ≠ []) ∧
      (x.isCommandExecutor = true → x'.crew = x.crew.join [t.taskId]) := by
  rw [launchOnSlave_forward env m t v hx hjob, bind_apply]
  -- the message is forwarded and the executor recorded
  let s1 : State :=
    { s with
      effects := s.effects ++ [.launchTasks x.channel (m.tasks.map (·.taskId))]
      framework := s.framework.modifyTask t.taskId ({ · with jobId := some jobId }) }
  have hx1 : s1.framework.slaves.lookup k = some x := by
    show (s.framework.modifyTask _ _).slaves.lookup k = some x
    rw [Framework.slaves_modifyTask, hx]
  have hreplaced1 : SlaveReplaced k x s s1 := .of_yard (yard_modifyTask _ _ s) hx
  have hreplaced2 : SlaveReplaced k (recordExecutor t x) s (s.forward m t k x jobId) :=
    hreplaced1.trans (.modifySlave hx1 (recordExecutor t))
  have hx2 := (hreplaced2.lookup k).trans (if_pos rfl)
  generalize s.forward m t k x jobId = s2 at hreplaced2 hx2 ⊢
  -- the slave is debited
  obtain ⟨x3, hdebit, hrest, hhost⟩ := debitSlave_ok_append hx2 hresources
    (adjustable_recordExecutor.mpr hadjust)
  have hcommand3 : x3.isCommandExecutor = (recordExecutor t x).isCommandExecutor :=
    congrArg Host.isCommandExecutor hhost
  have hcommands3 : x3.commandExecutors = (recordExecutor t x).commandExecutors :=
    congrArg Host.commandExecutors hhost
  have hcount3 : x3.taskCount = (recordExecutor t x).taskCount + 1 :=
    congrArg Host.taskCount hhost
  let s3 : State := (s2.withSlave k x3).log (.debited k t.taskId (t.resources.getD []))
  have hwith := SlaveReplaced.withSlave hx2 x3
  have hreplaced3 : SlaveReplaced k x3 s s3 := hreplaced2.trans ⟨hwith.lookup, hwith.ward⟩
  -- the slave is offerable again, and the task runs if its executor has registered
  let s4 : State :=
    { s3 with framework := s3.framework.modifySlave k ({ · with offerable := true }) }
  have hx3 : s3.framework.slaves.lookup k = some x3 := (hreplaced3.lookup k).trans (if_pos rfl)
  have hreplaced4 : SlaveReplaced k { x3 with offerable := true } s s4 :=
    hreplaced3.trans (.modifySlave hx3 ({ · with offerable := true }))
  have hx4 := (hreplaced4.lookup k).trans (if_pos rfl)
  have hfound : x3.isCommandExecutor = true → t.taskId ∈ x3.commandExecutors := by
    rw [hcommand3, hcommands3]
    exact recordExecutor_found.mpr fun hc hk => absurd hk (hkeys hc)
  obtain ⟨_, s5, hrun, hyard⟩ := runIfRegistered_yard hx4 hfound
  refine ⟨v.useOffer m x, s5, { x3 with offerable := true }, ?_,
    hreplaced4.trans (.of_yard hyard hx4), ⟨hrest.fits, hrest.portsOk⟩, ?_, fun hcommand => ?_⟩
  · have hfinish : finishOnSlave k t.taskId (v.useOffer m x) s3 =
        (do runIfRegistered k t.taskId; pure (some (v.useOffer m x)) :
          Handler (Option LaunchVars)) s4 := rfl
    simp only [hdebit]
    rw [hfinish, bind_apply, hrun]
    rfl
  · show x3.isCommandExecutor = true → x3.commandExecutors.keys ≠ []
    rw [hcommand3, hcommands3]
    exact keys_recordExecutor hkeys
  · have hcrew := crew_recordExecutor (t := t) (hkeys hcommand)
    show x3.crew = _
    have hcrew3 : x3.crew = { (recordExecutor t x).crew with
        taskCount := (recordExecutor t x).crew.taskCount + 1 } := by
      simp only [Slave.crew, hcommand3, hcommands3, hcount3]
    rw [hcrew3, hcrew]
    simp [Crew.join]

theorem launchOnPlaceholder_yard (env : Env) (t : TaskInfo) (k : String) (v : LaunchVars)
    (y : Yard) :
    Stays (fun s => s.yard = y ∧ t.taskId ∈ s.framework.tasks)
      (launchOnPlaceholder env t k v) := by
  let P : State → Prop := fun s => s.yard = y ∧ t.taskId ∈ s.framework.tasks
  have hemit : ∀ e, Stays P (emit e) := fun _ => .modify fun _ h => h
  have hmodify : ∀ g, Stays P (modifyFramework (·.modifyTask t.taskId g)) := fun g =>
    .modify fun s h => ⟨(yard_modifyTask _ g s).trans h.1, (Framework.mem_modifyTask ..).mpr h.2⟩
  have hlost : Stays P (processTaskLostStatusUpdate t.taskId (some k)) := by
    refine .bind (.get_bind fun _ _ => .ite (fun _ => .pure _) fun _ => hemit _) fun _ =>
      .get_bind fun s hs => .ite (fun _ => .bind (hmodify _) fun _ => ?_) fun hmem => ?_
    · exact .modify fun s h => ⟨(yard_addDeleteElement (by decide) _ s).trans h.1, h.2⟩
    · exact absurd hs.2 hmem
  have hassign : ∀ jobId, Stays P (assignJob t k jobId) := fun _ =>
    .bind (hmodify _) fun _ => .get_bind fun _ _ => .ite (fun _ => hlost) fun _ => .pure _
  have hscale : ∀ n, Stays P (scaleUp env n) := by
    intro n
    refine .get_bind fun s _ => .ite (fun _ => .pure _) fun _ => .bind (.get_bind fun s' _ => ?_)
      fun _ => .bind (.modify fun _ h => h) fun _ => .pure _
    split
    · exact .bind (hemit _) fun _ => .pure _
    · exact .pure _
  show Stays P _
  unfold launchOnPlaceholder
  split
  · exact .bind (hassign _) fun _ => .pure _
  · refine .get_bind fun _ _ => .bind (hscale _) fun jobs => ?_
    split
    · exact .bind hlost fun _ => .pure _
    · exact .bind (hassign _) fun _ => .pure _

theorem LaunchFits.next {slaves slaves' : Dict Slave} (h : LaunchFits env slaves (t :: ts))
    (hmem : ∀ k ∈ slaves', k ∈ slaves)
    (hslaves : ∀ k x, slaves'.lookup k = some x →
      (slaves.lookup k = some x ∧ (isPlaceholder k = false → t.slave ≠ some k)) ∨
      (Adjustable env.portSubtract x
          ((ts.filter (·.slave = some k)).flatMap fun t => t.resources.getD []) ∧
        (x.isCommandExecutor = true → x.commandExecutors.keys ≠ []))) :
    LaunchFits env slaves' ts where
  named t' ht' := h.named t' (List.mem_cons_of_mem t ht')
  ready t' ht' k hk hreal hin := h.ready t' (List.mem_cons_of_mem t ht') k hk hreal (hmem k hin)
  adjustable k x hx hreal := by
    rcases hslaves k x hx with ⟨hold, hne⟩ | hnew
    · have hadjust := h.adjustable k x hold hreal
      rwa [List.filter_cons_of_neg (by simpa using hne hreal)] at hadjust
    · exact hnew.1
  executors k x hx hcommand := by
    rcases hslaves k x hx with ⟨hold, -⟩ | hnew
    · exact h.executors k x hold hcommand
    · exact hnew.2 hcommand

/-- More executors of a slave. -/
def Ward.join (ids : List String) (w : Ward) : Ward := { w with crew := w.crew.map (·.join ids) }

theorem Ward.join_nil (w : Ward) : w.join [] = w := by
  have hcrew : w.crew.map (·.join []) = w.crew := by
    cases w.crew with
    | none => rfl
    | some c => rw [Option.map_some, Crew.join_nil]
  rw [Ward.join, hcrew]

theorem Ward.join_join (ids ids' : List String) (w : Ward) :
    (w.join ids).join ids' = w.join (ids ++ ids') := by
  have hcrew : (w.crew.map (·.join ids)).map (·.join ids') = w.crew.map (·.join (ids ++ ids')) := by
    rw [Option.map_map]
    exact congrArg (fun f => w.crew.map f) (funext fun c => c.join_join ids ids')
  simp only [Ward.join, hcrew]

theorem Ward.join_of_none {w : Ward} (h : w.crew = none) (ids : List String) : w.join ids = w := by
  have hcrew : w.crew.map (·.join ids) = w.crew := by rw [h, Option.map_none]
  rw [Ward.join, hcrew]

theorem launchTask_ward (m : LaunchTasksMessage) (v : LaunchVars)
    (hfits : LaunchFits env s.framework.slaves (t :: ts)) (hreal : isPlaceholder slaveId = false)
    (hcommand : ∀ c ∈ (s.ward slaveId).crew, c.isCommandExecutor = true) :
    ∃ v' s', launchTask env m t v s = .ok (some v') s' ∧
      LaunchFits env s'.framework.slaves ts ∧
      s'.ward slaveId =
        (s.ward slaveId).join (if t.slave = some slaveId then [t.taskId] else []) := by
  obtain ⟨k, hslave⟩ := isSome_iff_exists.mp (hfits.named t List.mem_cons_self)
  have hstage : (s.stage m t).yard = s.yard := rfl
  -- a task that is for no slave that is there
  have haside : ∀ {s1 : State}, s1.yard = s.yard →
      (∀ x, s.framework.slaves.lookup k = some x → isPlaceholder k = true) →
      LaunchFits env s1.framework.slaves ts ∧ s1.ward slaveId =
        (s.ward slaveId).join (if t.slave = some slaveId then [t.taskId] else []) := by
    intro s1 hyard hnone
    rw [slaves_of_yard hyard]
    refine ⟨hfits.next (fun _ h => h) fun k' x hx => .inl ⟨hx, fun hreal' heq => ?_⟩, ?_⟩
    · obtain rfl := Option.some.inj (hslave.symm.trans heq)
      rw [hnone x hx] at hreal'
      cases hreal'
    · have hward : s1.ward slaveId = s.ward slaveId := congrArg (Yard.ward slaveId) hyard
      rw [hward]
      split
      · rename_i heq
        obtain rfl := Option.some.inj (hslave.symm.trans heq)
        have hcrew : (s.ward k).crew = none := by
          show (s.framework.slaves.lookup k).map Slave.crew = none
          cases hx : s.framework.slaves.lookup k with
          | none => rfl
          | some x =>
            rw [hnone x hx] at hreal
            cases hreal
        rw [Ward.join_of_none hcrew]
      · rw [Ward.join_nil]
  rw [launchTask_of_slave hslave]
  cases hplace : isPlaceholder k with
  | true =>
    have hmem : t.taskId ∈ (s.stage m t).framework.tasks :=
      lookup_isSome.mp (Option.isSome_of_eq_some (State.lookup_stage s m t))
    obtain ⟨v', s1, hrun, hyard, -⟩ :=
      Triple.eq_ok (launchOnPlaceholder_yard env t k v s.yard) ⟨hstage, hmem⟩
    obtain ⟨hrest, hward⟩ := haside hyard fun _ _ => hplace
    refine ⟨v', s1, ?_, hrest, hward⟩
    rw [if_pos rfl, bind_apply, hrun]
    rfl
  | false =>
    rw [if_neg Bool.false_ne_true]
    cases hx : (s.stage m t).framework.slaves.lookup k with
    | none =>
      obtain ⟨hrest, hward⟩ := haside hstage fun x hx' => nomatch hx.symm.trans hx'
      refine ⟨v, s.stage m t, ?_, hrest, hward⟩
      simp only [launchOnSlave, bind_apply, EStateM.get_apply, hx, pure_apply]
    | some x =>
      have hmem : k ∈ s.framework.slaves := lookup_isSome.mp (Option.isSome_of_eq_some hx)
      obtain ⟨hjob, hresources⟩ := hfits.ready t List.mem_cons_self k hslave hplace hmem
      obtain ⟨jobId, hjob⟩ := isSome_iff_exists.mp hjob
      have hadjust := hfits.adjustable k x hx hplace
      rw [List.filter_cons_of_pos (by simpa using hslave), List.flatMap_cons] at hadjust
      obtain ⟨v', s1, x', hrun, hreplaced, hrest, hkeys, hcrew⟩ :=
        launchOnSlave_replaced m v hx hjob hresources hadjust (hfits.executors k x hx)
      refine ⟨v', s1, hrun, hfits.next (fun k' hk' => ?_) fun k' y hy => ?_, ?_⟩
      · rw [← lookup_isSome, hreplaced.lookup] at hk'
        split at hk'
        · rename_i heq
          exact heq ▸ hmem
        · exact lookup_isSome.mp hk'
      · rw [hreplaced.lookup] at hy
        split at hy
        · rename_i heq
          obtain rfl := Option.some.inj hy
          exact .inr ⟨heq ▸ hrest, hkeys⟩
        · rename_i hne
          refine .inl ⟨hy, fun _ heq => hne ?_⟩
          exact Option.some.inj (heq.symm.trans hslave)
      · rw [hreplaced.ward, hreplaced.lookup]
        have hward : (s.stage m t).ward slaveId = s.ward slaveId := rfl
        rw [hward]
        by_cases heq : slaveId = k
        · subst heq
          have hold : (s.ward slaveId).crew = some x.crew := congrArg (Option.map Slave.crew) hx
          have hnew := hcrew (hcommand x.crew hold)
          simp [Ward.join, hslave, hold, hnew]
        · have hne : t.slave ≠ some slaveId := fun h =>
            heq (Option.some.inj (h.symm.trans hslave))
          rw [if_neg heq, if_neg hne, Ward.join_nil]
          rfl

theorem launchLoop_ward {ts : List TaskInfo} (m : LaunchTasksMessage) (v : LaunchVars)
    (hfits : LaunchFits env s.framework.slaves ts) (hreal : isPlaceholder slaveId = false)
    (hcommand : ∀ c ∈ (s.ward slaveId).crew, c.isCommandExecutor = true) :
    ∃ v' s', launchLoop env m ts v s = .ok (some v') s' ∧ s'.ward slaveId =
      (s.ward slaveId).join ((ts.filter (·.slave = some slaveId)).map (·.taskId)) := by
  induction ts generalizing s v with
  | nil => exact ⟨v, s, rfl, (Ward.join_nil _).symm⟩
  | cons t ts ih =>
    obtain ⟨v1, s1, hrun, hrest, hward⟩ := launchTask_ward m v hfits hreal hcommand
    have hcommand1 : ∀ c ∈ (s1.ward slaveId).crew, c.isCommandExecutor = true := by
      intro c hc
      rw [hward] at hc
      obtain ⟨c0, hc0, rfl⟩ := Option.map_eq_some_iff.mp hc
      exact hcommand c0 hc0
    obtain ⟨v2, s2, hrun2, hward2⟩ := ih v1 hrest hcommand1
    refine ⟨v2, s2, ?_, ?_⟩
    · simp only [launchLoop, bind_apply, hrun]
      exact hrun2
    · rw [hward2, hward, Ward.join_join]
      by_cases h : t.slave = some slaveId <;> simp [h]

/-! ### The offers that are left -/

/-- The slave is as before, and no place-holder was mapped to it. -/
def Ward.Spared (slaveId : String) (w w' : Ward) : Prop :=
  (∃ placeholders, w' = { w with placeholderToSlave := placeholders }) ∧
    ∀ p, w'.placeholderToSlave.lookup p = some slaveId →
      w.placeholderToSlave.lookup p = some slaveId

variable {w : Ward}

theorem Ward.Spared.refl (w : Ward) : w.Spared slaveId w :=
  ⟨⟨w.placeholderToSlave, rfl⟩, fun _ h => h⟩

theorem Ward.stays_spared {α : Type} {m : Handler α} (h : ∀ r, Stays (·.ward slaveId = r) m) :
    Stays (fun s => w.Spared slaveId (s.ward slaveId)) m :=
  Stays.of_part (Q := fun r : Ward => w.Spared slaveId r) fun r _ => h r

theorem Yard.stays_spared {α : Type} {m : Handler α} (h : ∀ y, Stays (·.yard = y) m) :
    Stays (fun s => w.Spared slaveId (s.ward slaveId)) m :=
  Ward.stays_spared fun _ => Yard.stays_ward h

theorem deleteSlave_spared (hk : slaveId ≠ k) :
    Stays (fun s => w.Spared slaveId (s.ward slaveId)) (deleteSlave k) := by
  refine .bind (.modify fun s h => ?_) fun _ => .bind (.modify fun s h => ?_) fun _ =>
    .modify fun s h => ?_
  · rwa [ward_addDeleteElement_ne hk]
  · rwa [ward_modifySlave_ne hk]
  · -- the place-holder of the other slave is forgotten
    dsimp only [Framework.forgetPlaceholder]
    split
    · rename_i p _
      obtain ⟨⟨d, hd⟩, hsub⟩ := h
      refine ⟨⟨s.framework.placeholderToSlave.erase p, ?_⟩, fun p' hp' => hsub p' ?_⟩
      · have hward : State.ward slaveId
            { s with
              framework := { s.framework with
                placeholderToSlave := s.framework.placeholderToSlave.erase p } } =
            { s.ward slaveId with
              placeholderToSlave := s.framework.placeholderToSlave.erase p } := rfl
        rw [hward, hd]
      · have hp' : (s.framework.placeholderToSlave.erase p).lookup p' = some slaveId := hp'
        by_cases heq : p' = p
        · rw [heq, AList.lookup_erase] at hp'
          cases hp'
        · rwa [AList.lookup_erase_ne heq] at hp'
    · exact h

theorem refuseSlave_spared (maxRejectedOffers : Nat) (refuseSeconds : Option ℚ) (offerId : String)
    (hx : slaveId = k → 0 < x.taskCount) (reofferTime : Option ℚ) :
    Stays (fun s => w.Spared slaveId (s.ward slaveId))
      (refuseSlave maxRejectedOffers refuseSeconds offerId k x reofferTime) := by
  have hoffer : Stays (fun s => w.Spared slaveId (s.ward slaveId))
      (addDeleteElement .offers offerId) :=
    Yard.stays_spared fun _ => Yard.stays_addDeleteElement (by decide) _
  have hmodify : ∀ g : Slave → Slave, (∀ x, (g x).crew = x.crew) →
      Stays (fun s => w.Spared slaveId (s.ward slaveId)) (modifyFramework (·.modifySlave k g)) :=
    fun g hg => Ward.stays_spared fun _ => Ward.stays_modifySlave k hg
  unfold refuseSlave
  split
  · exact .bind hoffer fun _ => .bind (hmodify _ fun _ => rfl) fun _ => .pure _
  · rename_i hcount
    have hk : slaveId ≠ k := fun heq => hcount (hx heq)
    have hshutdown : Stays (fun s => w.Spared slaveId (s.ward slaveId))
        (sendSlaveShutdownMessage x.channel) := Yard.stays_spared fun _ => Yard.stays_emit _
    exact .get_bind fun _ _ => .bind (hmodify _ fun _ => rfl) fun _ =>
      .bind (.ite (fun _ => .pure _) fun _ => hoffer) fun _ =>
      .bind (.ite (fun _ => .bind hshutdown fun _ => deleteSlave_spared hk) fun _ => .pure _)
        fun _ => .pure _

theorem refuseOffer_spared (hbusy : ∀ c ∈ w.crew, 0 < c.taskCount) (maxRejectedOffers : Nat)
    (refuseSeconds : Option ℚ) (offerId : String) (reofferTime : Option ℚ) :
    Stays (fun s => w.Spared slaveId (s.ward slaveId))
      (refuseOffer maxRejectedOffers refuseSeconds offerId reofferTime) := by
  refine .get_bind fun s hs => ?_
  dsimp only
  split
  · exact .pure _
  · rename_i offer _
    split
    · rename_i x hx
      refine refuseSlave_spared _ _ _ (fun heq => ?_) _
      obtain ⟨⟨d, hd⟩, -⟩ := hs
      have hcrew : (s.ward slaveId).crew = some x.crew := by
        show (s.framework.slaves.lookup slaveId).map Slave.crew = some x.crew
        rw [heq, hx]
        rfl
      rw [hd] at hcrew
      exact hbusy x.crew hcrew
    · refine .ite (fun _ => .get_bind fun _ _ => .ite (fun _ => .bind ?_ fun _ => .pure _)
        fun _ => .bind ?_ fun _ => .pure _) fun _ => .pure _
      · exact .modify fun _ h => h
      · exact Yard.stays_spared fun _ => Yard.stays_addDeleteElement (by decide) _

theorem refuseOffers_spared (hbusy : ∀ c ∈ w.crew, 0 < c.taskCount) (maxRejectedOffers : Nat)
    (refuseSeconds : Option ℚ) (ids : List String) (reofferTime : Option ℚ) :
    Stays (fun s => w.Spared slaveId (s.ward slaveId))
      (refuseOffers maxRejectedOffers refuseSeconds ids reofferTime) := by
  induction ids generalizing reofferTime with
  | nil => exact .pure _
  | cons id ids ih =>
    exact .bind (refuseOffer_spared hbusy _ _ _ _) fun reofferTime => ih reofferTime

theorem processRemainingOffers_spared (hevent : w.offerEvent = true)
    (hmax : w.maxRejectedOffers.isSome) (hbusy : ∀ c ∈ w.crew, 0 < c.taskCount)
    (refuseSeconds : Option ℚ) (ids : List String) :
    Stays (fun s => w.Spared slaveId (s.ward slaveId))
      (processRemainingOffers refuseSeconds ids) := by
  have hset : Stays (fun s => w.Spared slaveId (s.ward slaveId)) setOfferEvent :=
    Stays.of_part (Q := fun y : Yard => w.Spared slaveId (y.ward slaveId)) fun y hy => by
      obtain ⟨⟨d, hd⟩, -⟩ := hy
      exact Yard.stays_setOfferEvent ((congrArg Ward.offerEvent hd).trans hevent)
  refine .get_bind fun s hs => ?_
  obtain ⟨n, hn⟩ := isSome_iff_exists.mp hmax
  have hmax' : s.framework.config.maxRejectedOffers = some n := by
    obtain ⟨⟨d, hd⟩, -⟩ := hs
    exact (congrArg Ward.maxRejectedOffers hd).trans hn
  dsimp only
  rw [hmax']
  exact .bind (.pure _) fun _ => .bind (refuseOffers_spared hbusy _ _ _ _) fun _ =>
    .ite (fun _ => .pure _) fun _ => .bind (.modify fun _ h => h) fun _ => hset

/-- Whether `launch_tasks` returns, and the slave afterwards. -/
theorem launchTasks_ward (env : Env) (m : LaunchTasksMessage) (hactive : s.tracking = .active)
    (hevent : s.framework.offerEvent = true) (hmax : s.framework.config.maxRejectedOffers.isSome)
    (hfits : LaunchFits env s.framework.slaves m.tasks) (hreal : isPlaceholder slaveId = false)
    (hcrew : ∀ c ∈ (s.ward slaveId).crew, c.isCommandExecutor = true ∧ 0 < c.taskCount) :
    ∃ a s', launchTasks env .queue m s = .ok a s' ∧
      ((s.ward slaveId).join (m.tasksOn slaveId)).Spared slaveId (s'.ward slaveId) := by
  have hdict : s.withTaskDict.ward slaveId = s.ward slaveId := rfl
  obtain ⟨v, s1, hrun, hward⟩ := launchLoop_ward (s := s.withTaskDict) m {} hfits hreal
    fun c hc => (hcrew c hc).1
  rw [hdict] at hward
  have hbusy : ∀ c ∈ ((s.ward slaveId).join (m.tasksOn slaveId)).crew, 0 < c.taskCount := by
    intro c hc
    obtain ⟨c0, hc0, rfl⟩ := Option.map_eq_some_iff.mp hc
    have hcount := (hcrew c0 hc0).2
    simp only [Crew.join]
    omega
  have hrest : Stays (fun s' => ((s.ward slaveId).join (m.tasksOn slaveId)).Spared slaveId
      (s'.ward slaveId)) (processRemainingOffers m.refuseSeconds (v.remainingOffers m)) :=
    processRemainingOffers_spared hevent hmax hbusy _ _
  have hstart : ((s.ward slaveId).join (m.tasksOn slaveId)).Spared slaveId (s1.ward slaveId) := by
    rw [hward]
    exact .refl _
  obtain ⟨a, s2, hrun2, hspared⟩ := Triple.eq_ok hrest hstart
  refine ⟨a, s2, ?_, hspared⟩
  rw [launchTasks_of_active env .queue m hactive, launchActive, bind_apply, hrun]
  exact hrun2

end Launch

/-! ## Post-processing -/

theorem exists_deleteAll (des : List DeleteElement) (f : Framework) :
    ∃ taskDict slaveDict offers, deleteAll des f = { f with taskDict, slaveDict, offers } ∧
      slaveDict.isSome = f.slaveDict.isSome := by
  induction des generalizing f with
  | nil => exact ⟨f.taskDict, f.slaveDict, f.offers, rfl, rfl⟩
  | cons de des ih =>
    obtain ⟨tasks, slaves, offers, heq, hsome⟩ := ih (de.delete f)
    refine ⟨tasks, slaves, offers, heq.trans ?_, hsome.trans ?_⟩
    · obtain ⟨d, k⟩ := de
      cases d <;> rfl
    · obtain ⟨d, k⟩ := de
      cases d with
      | slaves => simp [DeleteElement.delete]
      | tasks => rfl
      | offers => rfl

/-- A slave that is queued for removal is removed. -/
def Ward.settle (r : Ward) : Ward :=
  { r with crew := if r.removal then none else r.crew, removal := false }

/-- The slave after the post-processor. -/
theorem ward_targetPostprocessor (s : State) :
    (targetPostprocessor s).ward slaveId = (s.ward slaveId).settle := by
  have hcrew : ((deleteAll s.deleteElements s.framework).slaves.lookup slaveId).map Slave.crew =
      if (s.ward slaveId).removal then none else (s.ward slaveId).crew := by
    rw [lookup_slaves_deleteAll, ward_removal]
    by_cases h : ⟨.slaves, slaveId⟩ ∈ s.deleteElements
    · simp [h]
    · simp only [h, if_false, decide_false, Bool.false_eq_true]
      rfl
  obtain ⟨tasks, slaves, offers, heq, hsome⟩ := exists_deleteAll s.deleteElements s.framework
  rw [heq] at hcrew
  rw [Ward.settle, ← hcrew]
  simp only [targetPostprocessor, heq, State.ward, Yard.ward, State.yard, hsome]
  rfl

end Urb
