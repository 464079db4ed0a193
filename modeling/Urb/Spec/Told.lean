import Mathlib.Logic.Function.Basic
import Urb.ForStd.Run
import Urb.Spec.Frame
import Urb.Spec.Postprocess

/-!
# What a framework was told about its tasks

The log of a service has every status update that was sent to the framework. `Told` says for each
task in which terminal state the framework was told it ended, since it launched the task last. An
update `Agrees` if it does not contradict this.

A handler starts with a log and with what the framework was told until then: `Account`. The states
of the handler are `Sincere` if all updates since then agree, and if the record of a task that has
ended, as far as the framework knows, has the state that it was told. The record may also be
`TASK_STAGING`: `reconcile_tasks` tells the framework of the end of such a task without noting it.

Most of the code neither tells the framework anything nor changes the state of a task: `Mild`.
-/

namespace Urb

variable {state : TaskState} {e : Effect}

variable {launching : Bool} {told : Told} (s : State) (env : Env) (k taskId : String)

open EStateM (Triple Keeps)

/-- The terminal state of a task that the framework was told, since it launched the task last. -/
abbrev Told := String → Option TaskState

/-- The framework may be told that the task is in the state. -/
def Told.Open (told : Told) (state : TaskState) (taskId : String) : Prop :=
  told taskId = none ∨ told taskId = some state

theorem Told.Open.congr {told' : Told} {taskId : String}
    (h : told.Open state taskId) (hsame : told' taskId = told taskId) :
    told'.Open state taskId := by
  unfold Told.Open
  rw [hsame]
  exact h

namespace Effect

/-- What the framework was told after an effect. The first terminal state counts, until
    `launch_tasks` stores a new record of the task. -/
def tell (launching : Bool) (told : Told) : Effect → Told
  | .stored taskId => if launching then Function.update told taskId none else told
  | .statusUpdate _ taskId state _ =>
    if state.terminal && (told taskId).isNone then Function.update told taskId (some state)
    else told
  | _ => told

/-- The effect does not contradict what the framework was told. -/
def Agrees (told : Told) : Effect → Prop
  | .statusUpdate _ taskId state _ => told.Open state taskId
  | _ => True

/-- The effects that neither tell the framework of a task nor store a record. -/
def mild : Effect → Bool
  | .stored _ => false
  | .statusUpdate _ _ _ _ => false
  | _ => true

theorem tell_of_mild (he : e.mild = true) (launching : Bool) (told : Told) :
    e.tell launching told = told := by
  cases e with
  | stored taskId => cases he
  | statusUpdate channel taskId state slaveId => cases he
  | _ => rfl

theorem agrees_of_mild (he : e.mild = true) (told : Told) : e.Agrees told := by
  cases e with
  | statusUpdate channel taskId state slaveId => cases he
  | _ => trivial

end Effect

/-- The updates of a list of effects agree with what the framework was told before them. -/
def Consistent (launching : Bool) (told : Told) (effects : List Effect) : Prop :=
  Run.Meets (Effect.tell launching) (fun told e => e.Agrees told) told effects

/-- The records of the tasks that have ended, as far as the framework knows, have the state that it
    was told, or they are staging. -/
def Matches (told : Told) (f : Framework) : Prop :=
  ∀ k r, f.tasks.lookup k = some r → r.taskInfo.taskId = k ∧
    ∀ t, told k = some t → r.state = t ∨ r.state = .staging

/-! ## Mild code -/

/-- Nothing is told, and the tasks that are left have the states they had. -/
structure Mild (s s' : State) : Prop where
  log : ∃ new, s'.effects = s.effects ++ new ∧ ∀ e ∈ new, e.mild = true
  states : ∀ k r', s'.framework.tasks.lookup k = some r' →
    ∃ r, s.framework.tasks.lookup k = some r ∧ r'.taskInfo.taskId = r.taskInfo.taskId ∧
      r'.state = r.state

namespace Mild

theorem refl : Mild s s :=
  ⟨⟨[], (List.append_nil _).symm, nofun⟩, fun _ r' hr => ⟨r', hr, rfl, rfl⟩⟩

theorem trans {s1 s2 s3 : State} (h : Mild s1 s2) (h' : Mild s2 s3) : Mild s1 s3 where
  log := exists_append_trans h.log h'.log
  states k r3 hr3 := by
    obtain ⟨r2, hr2, hid, hstate⟩ := h'.states k r3 hr3
    obtain ⟨r1, hr1, hid', hstate'⟩ := h.states k r2 hr2
    exact ⟨r1, hr1, hid.trans hid', hstate.trans hstate'⟩

theorem emit (e : Effect) (he : e.mild = true) : Mild s { s with effects := s.effects ++ [e] } where
  log := ⟨[e], rfl, fun e' he' => by rw [List.mem_singleton.mp he']; exact he⟩
  states _ r' hr := ⟨r', hr, rfl, rfl⟩

theorem of_tasks (f : Framework) (hf : f.tasks = s.framework.tasks) :
    Mild s { s with framework := f } where
  log := ⟨[], (List.append_nil _).symm, nofun⟩
  states k r' hr := by
    dsimp only at hr
    rw [hf] at hr
    exact ⟨r', hr, rfl, rfl⟩

theorem modifyTask (g : TaskRecord → TaskRecord)
    (hg : ∀ r, (g r).taskInfo.taskId = r.taskInfo.taskId ∧ (g r).state = r.state) :
    Mild s { s with framework := s.framework.modifyTask taskId g } where
  log := ⟨[], (List.append_nil _).symm, nofun⟩
  states k r' hr := by
    dsimp only at hr
    rw [Framework.lookup_modifyTask] at hr
    split at hr
    · rename_i hk
      subst hk
      obtain ⟨r, hlookup, rfl⟩ := Option.map_eq_some_iff.mp hr
      exact ⟨r, hlookup, hg r⟩
    · exact ⟨r', hr, rfl, rfl⟩

theorem targetPostprocessor : Mild s (targetPostprocessor s) where
  log := ⟨[], (List.append_nil _).symm, nofun⟩
  states k r' hr := by
    have hlookup := lookup_tasks_deleteAll s.deleteElements s.framework k
    refine ⟨r', ?_, rfl, rfl⟩
    split at hlookup
    · exact absurd (hr.symm.trans hlookup) (by simp)
    · exact hlookup.symm.trans hr

end Mild

theorem Mute.mild {s s' : State} (h : Mute s s') : Mild s s' := by
  cases h with
  | emit e he =>
    apply Mild.emit
    cases e with
    | stored taskId => cases he
    | statusUpdate channel taskId state slaveId => cases he
    | _ => rfl
  | modifyTask taskId g hg =>
    apply Mild.modifyTask
    intro r
    exact ⟨congrArg Prod.fst (hg r).1, (hg r).2⟩
  | modifySlave slaveId g hg => exact .of_tasks s _ (Framework.tasks_modifySlave _ _ _)
  | delete d k => exact ⟨⟨[], (List.append_nil _).symm, nofun⟩, (Mild.refl s).states⟩
  | retry r => exact ⟨⟨[], (List.append_nil _).symm, nofun⟩, (Mild.refl s).states⟩
  | framework f ht hs ho hc hj => exact .of_tasks s f ht

theorem Idle.mild {s s' : State} (h : Idle s s') : Mild s s' := by
  cases h with
  | mute h => exact h.mild
  | modifySlave slaveId g hg => exact .of_tasks s _ (Framework.tasks_modifySlave _ _ _)
  | revive => exact .of_tasks s _ rfl

def Mildly {α : Type} (m : Handler α) : Prop := Keeps Mild m

theorem Idly.mildly {α : Type} {m : Handler α} (h : Idly m) : Mildly m :=
  h.of_steps .refl (fun _ _ _ => .trans) fun _ _ hstep => hstep.mild

theorem Mutely.mildly {α : Type} {m : Handler α} (h : Mutely m) : Mildly m := h.idly.mildly

instance Mild.isPreorder : IsPreorder State Mild where
  refl := .refl
  trans _ _ _ := .trans

namespace Mildly

variable {α β : Type}

theorem emit (e : Effect) (he : e.mild = true) : Mildly (Urb.emit e) := fun s => .emit s e he

theorem modifySlave (g : Slave → Slave) : Mildly (Urb.modifyFramework (·.modifySlave k g)) :=
  fun s => .of_tasks s _ (Framework.tasks_modifySlave _ _ _)

theorem modifyTask (g : TaskRecord → TaskRecord)
    (hg : ∀ r, (g r).taskInfo.taskId = r.taskInfo.taskId ∧ (g r).state = r.state) :
    Mildly (Urb.modifyFramework (·.modifyTask taskId g)) :=
  fun s => .modifyTask s taskId g hg

theorem onSlave (k : String) (m : SlaveM α) : Mildly (Urb.onSlave k m) := by
  intro s
  rw [EStateM.after_eq_state, Urb.onSlave]
  cases s.framework.slaves.lookup k with
  | none => exact .refl s
  | some x =>
    dsimp only
    cases m x with
    | ok a x' => exact .of_tasks s _ rfl
    | error e x' => exact .of_tasks s _ rfl

theorem debitSlave (t : TaskInfo) : Mildly (Urb.debitSlave env k t) :=
  .bind (onSlave _ _) fun _ => emit _ rfl

theorem creditSlave (t : TaskInfo) : Mildly (Urb.creditSlave env k t) :=
  .bind (emit _ rfl) fun _ => onSlave _ _

theorem scaleUp (scaleCount : Option Nat) : Mildly (Urb.scaleUp env scaleCount) := by
  have hsubmit : ∀ n, Mildly (Urb.submitExecutorRunner env n) := by
    intro n
    refine .bind .get fun s => ?_
    split
    · exact .bind (emit _ rfl) fun _ => .pure _
    · exact .pure _
  exact .bind .get fun _ => .ite (.pure _) <| .bind (hsubmit _) fun _ =>
    .bind (fun s => .of_tasks s _ rfl) fun _ => .pure _

theorem launchOnSlave (m : LaunchTasksMessage) (t : TaskInfo) (k : String)
    (v : LaunchVars) : Mildly (Urb.launchOnSlave env m t k v) := by
  refine .bind .get fun s => ?_
  dsimp only
  split
  · exact .pure _
  · split
    · exact .pure _
    · exact .bind (modifyTask _ _ fun _ => ⟨rfl, rfl⟩) fun _ => .bind (emit _ rfl) fun _ =>
        .bind (modifySlave _ _) fun _ => .bind (debitSlave _ _ _) fun _ =>
        .bind (modifySlave _ _) fun _ => .bind (Mutely.runIfRegistered _ _).mildly fun _ => .pure _

theorem releaseTask (x : Slave) (t : TaskInfo) : Mildly (Urb.releaseTask env k taskId x t) := by
  refine .bind (.ite (Mutely.releaseCommand _ _ _).mildly ?_) fun _ => .bind .get fun _ =>
    .bind (modifyTask _ _ fun _ => ⟨rfl, rfl⟩) fun _ => (Mutely.addDeleteElement _ _).mildly
  exact .bind (creditSlave _ _ _) fun _ => .bind .get fun _ => .ite (emit _ rfl) (.pure _)

theorem killOnSlave (t : TaskInfo) : Mildly (do
      creditUnlessCommand env k t
      if ← sendKillTask k taskId then do
        setOfferEvent
        Pure.pure true
      else Pure.pure false) :=
  .bind (.bind .get fun _ => .bind (.orRaise _ _) fun _ => .ite (.pure _) (creditSlave _ _ _))
    fun _ =>
    .bind (Mutely.sendKillTask _ _).mildly fun _ =>
    .ite (.bind Mutely.setOfferEvent.mildly fun _ => .pure _) (.pure _)

theorem startPending (m : RegisterExecutorRunnerMessage) : Mildly (Urb.startPending env m) := by
  have hpending : ∀ entries v, Mildly (Urb.pendingTasks env m entries v) := by
    intro entries
    induction entries with
    | nil => exact fun v => .pure _
    | cons e rest ih =>
      intro v
      refine .bind (.ite (.bind (.orRaise _ _) fun _ => .bind ?_ fun _ =>
        .bind (debitSlave _ _ _) fun _ => .pure _) (.pure _)) fun v => ih v
      exact .ite (Mutely.adoptPending _ _ _ _ _).mildly (.pure _)
  exact .bind Mutely.taskEntries.mildly fun _ => .bind (hpending _ _) fun _ =>
    .bind (.ite (.pure _) (.bind (emit _ rfl) fun _ => .ite (.pure _)
      (.bind (scaleUp _ _) fun _ => .pure _))) fun _ => modifySlave _ _

theorem addSlave (m : RegisterExecutorRunnerMessage) : Mildly (Urb.addSlave env m) :=
  .bind (fun s => .of_tasks s _ rfl) fun _ => .bind (emit _ rfl) fun _ s => .of_tasks s _ rfl

theorem registerExecutor (entry : Entry) (m : RegisterExecutorMessage) :
    Mildly (Urb.registerExecutor env entry m) := by
  refine .bind .get fun s => .ite (.bind (.orRaise _ _) fun _ => ?_) (.pure _)
  split
  · exact (Mutely.retry _ _).mildly
  · refine .ite (Mutely.retry _ _).mildly ?_
    refine .bind ?_ fun _ => .bind .get fun _ => .bind (.orRaise _ _) fun _ =>
      .bind Mutely.taskEntries.mildly fun _ => .bind ?_ fun _ =>
      .bind (Mutely.taskInDocker _ _).mildly fun _ =>
      .ite (.pure _) (.bind (scaleUp _ _) fun _ => .pure _)
    · cases entry with
      | queue => exact .bind (modifySlave _ _) fun _ => emit _ rfl
      | http => exact .pure _
    · split
      · exact (Mutely.startTasks _ _ _ _ _ _).mildly
      · exact .pure _

end Mildly

/-! ## Code about one task

`killKnownTask`, `handleStatusUpdate` and others tell the framework that one task is in one state,
and note that state in the record of the task. The order in which they do it differs, and an
exception may come in between. -/

/-- The effect is mild, or it is about the task and tells of the state. -/
def Effect.About (taskId : String) (state : TaskState) : Effect → Prop
  | .stored taskId' => taskId' = taskId
  | .statusUpdate _ taskId' state' _ => taskId' = taskId ∧ state' = state
  | _ => True

theorem Effect.about_of_mild (he : e.mild = true) (taskId : String)
    (state : TaskState) : e.About taskId state := by
  cases e with
  | stored taskId' => cases he
  | statusUpdate channel taskId' state' slaveId => cases he
  | _ => trivial

/-- The framework is told of one task that it is in the state, and the task that may get this state
    is the same. -/
structure Tells (taskId : String) (state : TaskState) (s s' : State) : Prop where
  log : ∃ new, s'.effects = s.effects ++ new ∧ ∀ e ∈ new, e.About taskId state
  records : ∀ k r', s'.framework.tasks.lookup k = some r' →
    (∃ r, s.framework.tasks.lookup k = some r ∧ r'.taskInfo.taskId = r.taskInfo.taskId ∧
      (r'.state = r.state ∨ k = taskId ∧ r'.state = state)) ∨
    k = taskId ∧ r'.taskInfo.taskId = taskId ∧ r'.state = state

/-- The record of the task does not contradict the state. -/
def Noted (taskId : String) (state : TaskState) (s : State) : Prop :=
  ∀ r, s.framework.tasks.lookup taskId = some r → state.terminal = true →
    r.state = state ∨ r.state = .staging

/-- The framework is told, and the state is noted. -/
def Notes (taskId : String) (state : TaskState) (s s' : State) : Prop :=
  Tells taskId state s s' ∧ Noted taskId state s'

section Tells

variable {taskId : String} {state : TaskState} {s s' s1 s2 s3 : State} {α β : Type}
    {f : α → Handler β} {x : Handler α}

theorem Mild.tells (h : Mild s s') (taskId : String) (state : TaskState) :
    Tells taskId state s s' where
  log := by
    obtain ⟨new, hlog, hnew⟩ := h.log
    exact ⟨new, hlog, fun e he => Effect.about_of_mild (hnew e he) taskId state⟩
  records k r' hr' := by
    obtain ⟨r, hr, hid, hstate⟩ := h.states k r' hr'
    exact .inl ⟨r, hr, hid, .inl hstate⟩

theorem Noted.of_not_terminal (h : state.terminal = false) : Noted taskId state s := by
  intro r _ hterminal
  rw [h] at hterminal
  cases hterminal

namespace Tells

theorem refl (s : State) : Tells taskId state s s := (Mild.refl s).tells taskId state

theorem trans (h : Tells taskId state s1 s2) (h' : Tells taskId state s2 s3) :
    Tells taskId state s1 s3 where
  log := exists_append_trans h.log h'.log
  records k r3 hr3 := by
    rcases h'.records k r3 hr3 with ⟨r2, hr2, hid, hstate⟩ | hnew
    · rcases h.records k r2 hr2 with ⟨r1, hr1, hid', hstate'⟩ | ⟨hk, hid', hstate'⟩
      · refine .inl ⟨r1, hr1, hid.trans hid', ?_⟩
        rcases hstate with hstate | hstate
        · rw [hstate]
          exact hstate'
        · exact .inr hstate
      · -- the record was stored in the first part
        refine .inr ⟨hk, hid.trans hid', ?_⟩
        rcases hstate with hstate | hstate
        · exact hstate.trans hstate'
        · exact hstate.2
    · exact .inr hnew

theorem noted (h : Tells taskId state s s') (hs : Noted taskId state s) :
    Noted taskId state s' := by
  intro r' hr' hterminal
  rcases h.records taskId r' hr' with ⟨r, hr, -, hstate | hstate⟩ | ⟨-, -, hstate⟩
  · rw [hstate]
    exact hs r hr hterminal
  · exact .inl hstate.2
  · exact .inl hstate

theorem notes (h : Tells taskId state s s') (hs : Noted taskId state s) :
    Notes taskId state s s' := ⟨h, h.noted hs⟩

end Tells

theorem Notes.tells (h : Notes taskId state s1 s2) (h' : Tells taskId state s2 s3) :
    Notes taskId state s1 s3 := ⟨h.1.trans h', h'.noted h.2⟩

theorem Mildly.tells {m : Handler α} (h : Mildly m) (taskId : String) (state : TaskState) :
    Keeps (Tells taskId state) m := fun s => (h s).tells taskId state

instance Tells.isPreorder : IsPreorder State (Tells taskId state) where
  refl := .refl
  trans _ _ _ := .trans

theorem bind_notes (hx : Keeps (Notes taskId state) x)
    (hf : ∀ a, Keeps (Tells taskId state) (f a)) : Keeps (Notes taskId state) (x >>= f) :=
  hx.seq (fun _ _ _ => .tells) (fun _ _ h => h) hf

theorem sendStatusUpdate_tells (taskId : String) (state : TaskState) (slaveId : Option String) :
    Keeps (Tells taskId state) (sendStatusUpdate taskId state slaveId) := by
  refine .bind .get fun s => .ite (.pure _) ?_
  intro s
  refine ⟨⟨[_], rfl, fun e he => ?_⟩, ((Mild.refl s).tells taskId state).records⟩
  rw [List.mem_singleton.mp he]
  exact ⟨rfl, rfl⟩

theorem modifyTask_notes (taskId : String) (state : TaskState) (g : TaskRecord → TaskRecord)
    (hg : ∀ r, (g r).taskInfo.taskId = r.taskInfo.taskId ∧ (g r).state = state) :
    Keeps (Notes taskId state) (modifyFramework (·.modifyTask taskId g)) := by
  intro s
  constructor
  · refine ⟨⟨[], (List.append_nil _).symm, nofun⟩, fun k r' hr' => .inl ?_⟩
    have hlookup : (s.framework.modifyTask taskId g).tasks.lookup k = some r' := hr'
    rw [Framework.lookup_modifyTask] at hlookup
    split at hlookup
    · rename_i hk
      subst hk
      obtain ⟨r, hr, rfl⟩ := Option.map_eq_some_iff.mp hlookup
      exact ⟨r, hr, (hg r).1, .inr ⟨rfl, (hg r).2⟩⟩
    · exact ⟨r', hlookup, rfl, .inl rfl⟩
  · intro r' hr' _
    have hlookup : (s.framework.modifyTask taskId g).tasks.lookup taskId = some r' := hr'
    rw [Framework.lookup_modifyTask, if_pos rfl] at hlookup
    obtain ⟨r, -, rfl⟩ := Option.map_eq_some_iff.mp hlookup
    exact .inl (hg r).2

theorem storeTask_notes (taskId : String) (r : TaskRecord) (hid : r.taskInfo.taskId = taskId) :
    Keeps (Notes taskId r.state) (storeTask taskId r) := by
  intro s
  have hlookup : ∀ k, ((storeTask taskId r).after s).framework.tasks.lookup k =
      if k = taskId then some r else s.framework.tasks.lookup k := by
    intro k
    show (s.framework.tasks.insert taskId r).lookup k = _
    split
    · rename_i hk
      rw [hk, AList.lookup_insert]
    · rename_i hk
      exact AList.lookup_insert_ne hk
  constructor
  · refine ⟨⟨[.stored taskId], rfl, fun e he => ?_⟩, fun k r' hr' => ?_⟩
    · rw [List.mem_singleton.mp he]
      rfl
    · rw [hlookup] at hr'
      split at hr'
      · cases hr'
        exact .inr ⟨‹_›, hid, rfl⟩
      · exact .inl ⟨r', hr', rfl, .inl rfl⟩
  · intro r' hr' _
    rw [hlookup, if_pos rfl] at hr'
    cases hr'
    exact .inl rfl

end Tells

/-! ## The states of a handler -/

/-- What a handler starts with: whether it is `launch_tasks`, what the framework was told, and the
    log. -/
structure Account where
  launching : Bool
  told : Told
  log : List Effect

namespace Account

variable (a : Account)

/-- What the framework was told when the handler is in the state. -/
def toldIn (s : State) : Told :=
  (s.effects.drop a.log.length).foldl (Effect.tell a.launching) a.told

/-- All updates of the handler agree, and the records match what was told. -/
structure Sincere (s : State) : Prop where
  consistent : ∃ new, s.effects = a.log ++ new ∧ Consistent a.launching a.told new
  matched : Matches (a.toldIn s) s.framework
  terminal : ∀ k t, a.toldIn s k = some t → t.terminal = true

variable {a} {s s' : State}

variable {new : List Effect}

theorem toldIn_eq (h : s.effects = a.log ++ new) :
    a.toldIn s = new.foldl (Effect.tell a.launching) a.told := by
  rw [toldIn, h, List.drop_left]

theorem Sincere.toldIn_append (h : a.Sincere s) {new : List Effect}
    (hs' : s'.effects = s.effects ++ new) :
    a.toldIn s' = new.foldl (Effect.tell a.launching) (a.toldIn s) := by
  obtain ⟨old, hold, -⟩ := h.consistent
  have hall : s'.effects = a.log ++ (old ++ new) := by rw [hs', hold, List.append_assoc]
  rw [toldIn_eq hall, toldIn_eq hold, List.foldl_append]

theorem Sincere.consistent_append (h : a.Sincere s) {new : List Effect}
    (hs' : s'.effects = s.effects ++ new) (hnew : Consistent a.launching (a.toldIn s) new) :
    ∃ new, s'.effects = a.log ++ new ∧ Consistent a.launching a.told new := by
  obtain ⟨old, hold, hconsistent⟩ := h.consistent
  refine ⟨old ++ new, by rw [hs', hold, List.append_assoc], ?_⟩
  rw [toldIn_eq hold] at hnew
  exact Run.meets_append.mpr ⟨hconsistent, hnew⟩

theorem foldl_tell_of_mild
    (hnew : ∀ e ∈ new, e.mild = true) : new.foldl (Effect.tell launching) told = told := by
  induction new with
  | nil => rfl
  | cons e new ih =>
    rw [List.foldl_cons, Effect.tell_of_mild (hnew e List.mem_cons_self)]
    exact ih fun e' he' => hnew e' (List.mem_cons_of_mem _ he')

theorem consistent_of_mild (hnew : ∀ e ∈ new, e.mild = true) : Consistent launching told new := by
  induction new with
  | nil => trivial
  | cons e new ih =>
    have he := hnew e List.mem_cons_self
    refine ⟨Effect.agrees_of_mild he told, ?_⟩
    rw [Effect.tell_of_mild he]
    exact ih fun e' he' => hnew e' (List.mem_cons_of_mem _ he')

theorem Sincere.toldIn_mild (h : a.Sincere s) (hmild : Mild s s') : a.toldIn s' = a.toldIn s := by
  obtain ⟨new, hlog, hnew⟩ := hmild.log
  rw [h.toldIn_append hlog, foldl_tell_of_mild hnew]

theorem Sincere.mild (h : a.Sincere s) (hmild : Mild s s') : a.Sincere s' := by
  obtain ⟨new, hlog, hnew⟩ := hmild.log
  refine ⟨h.consistent_append hlog (consistent_of_mild hnew), ?_, ?_⟩
  · rw [h.toldIn_mild hmild]
    intro k r' hr'
    obtain ⟨r, hr, hid, hstate⟩ := hmild.states k r' hr'
    rw [hid, hstate]
    exact h.matched k r hr
  · rw [h.toldIn_mild hmild]
    exact h.terminal

theorem tell_about (launching : Bool) {told : Told} {taskId : String} (he : e.About taskId state)
    (htold : ∀ t, told taskId = some t → t = state ∧ state.terminal = true) :
    e.Agrees told ∧ (∀ k, k ≠ taskId → e.tell launching told k = told k) ∧
      ∀ t, e.tell launching told taskId = some t → t = state ∧ state.terminal = true := by
  cases e with
  | stored taskId' =>
    obtain rfl := he
    refine ⟨trivial, fun k hk => ?_, fun t ht => ?_⟩
    · cases launching with
      | false => rfl
      | true => exact Function.update_of_ne hk _ _
    · cases launching with
      | false => exact htold t ht
      | true => simp [Effect.tell] at ht
  | statusUpdate channel taskId' state' slaveId =>
    obtain ⟨rfl, rfl⟩ := he
    refine ⟨?_, fun k hk => ?_, fun t ht => ?_⟩
    · cases htask : told taskId' with
      | none => exact .inl htask
      | some t => exact .inr (by rw [htask, (htold t htask).1])
    · simp only [Effect.tell]
      split
      · exact Function.update_of_ne hk _ _
      · rfl
    · simp only [Effect.tell] at ht
      split at ht
      · rename_i hcond
        rw [Function.update_self] at ht
        cases ht
        exact ⟨rfl, (Bool.and_eq_true_iff.mp hcond).1⟩
      · exact htold t ht
  | _ => exact ⟨trivial, fun _ _ => rfl, htold⟩

theorem foldl_tell_about {taskId : String}
    {new : List Effect} (hnew : ∀ e ∈ new, e.About taskId state)
    (htold : ∀ t, told taskId = some t → t = state ∧ state.terminal = true) :
    Consistent launching told new ∧
      (∀ k, k ≠ taskId → new.foldl (Effect.tell launching) told k = told k) ∧
      ∀ t, new.foldl (Effect.tell launching) told taskId = some t →
        t = state ∧ state.terminal = true := by
  induction new generalizing told with
  | nil => exact ⟨trivial, fun _ _ => rfl, htold⟩
  | cons e new ih =>
    obtain ⟨hagrees, hothers, hsame⟩ :=
      tell_about launching (hnew e List.mem_cons_self) htold
    obtain ⟨hconsistent, hothers', hsame'⟩ :=
      ih (fun e' he' => hnew e' (List.mem_cons_of_mem _ he')) hsame
    exact ⟨⟨hagrees, hconsistent⟩, fun k hk => (hothers' k hk).trans (hothers k hk), hsame'⟩

theorem Sincere.notes {taskId : String} (h : a.Sincere s)
    (hopen : (a.toldIn s).Open state taskId) (hs : Notes taskId state s s') :
    a.Sincere s' ∧ (∀ k, k ≠ taskId → a.toldIn s' k = a.toldIn s k) ∧
      ∀ t, a.toldIn s' taskId = some t → t = state ∧ state.terminal = true := by
  have htold : ∀ t, a.toldIn s taskId = some t → t = state ∧ state.terminal = true := by
    intro t ht
    have hterminal := h.terminal taskId t ht
    rcases hopen with hnone | hsome
    · rw [hnone] at ht
      cases ht
    · rw [hsome] at ht
      cases ht
      exact ⟨rfl, hterminal⟩
  obtain ⟨new, hlog, hnew⟩ := hs.1.log
  obtain ⟨hconsistent, hothers, hsame⟩ := foldl_tell_about hnew htold
  rw [← h.toldIn_append hlog] at hothers hsame
  refine ⟨⟨h.consistent_append hlog hconsistent, fun k r' hr' => ⟨?_, fun t ht => ?_⟩,
    fun k t ht => ?_⟩, hothers, hsame⟩
  · rcases hs.1.records k r' hr' with ⟨r, hr, hid, -⟩ | ⟨hk, hid, -⟩
    · exact hid.trans (h.matched k r hr).1
    · exact hid.trans hk.symm
  · by_cases hk : k = taskId
    · subst hk
      obtain ⟨rfl, hterminal⟩ := hsame t ht
      exact hs.2 r' hr' hterminal
    · rcases hs.1.records k r' hr' with ⟨r, hr, -, hstate | hstate⟩ | hstate
      · rw [hothers k hk] at ht
        rw [hstate]
        exact (h.matched k r hr).2 t ht
      · exact absurd hstate.1 hk
      · exact absurd hstate.1 hk
  · by_cases hk : k = taskId
    · subst hk
      obtain ⟨rfl, hterminal⟩ := hsame t ht
      exact hterminal
    · rw [hothers k hk] at ht
      exact h.terminal k t ht

/-- The states of a handler in which the framework was told something with the property. -/
def With (a : Account) (P : Told → Prop) (s : State) : Prop := a.Sincere s ∧ P (a.toldIn s)

variable {P : Told → Prop} {α β : Type} {m : Handler α}

theorem With.mild (h : a.With P s) (hmild : Mild s s') : a.With P s' :=
  ⟨h.1.mild hmild, h.1.toldIn_mild hmild ▸ h.2⟩

theorem mildly (hm : Mildly m) : Triple (a.With P) m (fun _ => a.With P) a.Sincere := by
  have h : Triple (a.With P) m (fun _ => a.With P) (a.With P) :=
    Triple.of_after fun s hs => hs.mild (hm s)
  exact h.weaken (fun _ h => h) (fun _ _ h => h) fun _ h => h.1

theorem notes {I : State → Prop} {Q : Told → Prop} (taskId : String)
    (hm : ∀ s, I s → ∃ state, a.Sincere s ∧ Notes taskId state s (m.after s) ∧
      (a.toldIn s).Open state taskId ∧
      ∀ told' : Told, (∀ k, k ≠ taskId → told' k = a.toldIn s k) →
        (∀ t, told' taskId = some t → t = state ∧ state.terminal = true) → Q told') :
    Triple I m (fun _ => a.With Q) a.Sincere := by
  have h : Triple I m (fun _ => a.With Q) (a.With Q) := by
    refine Triple.of_after fun s hs => ?_
    obtain ⟨state, hsincere, hnotes, hopen, hQ⟩ := hm s hs
    obtain ⟨hsincere', hothers, hsame⟩ := hsincere.notes hopen hnotes
    exact ⟨hsincere', hQ _ hothers hsame⟩
  exact h.weaken (fun _ h => h) (fun _ _ h => h) fun _ h => h.1

theorem notes_nonterminal {taskId : String}
    (hstate : state.terminal = false) (hm : Keeps (Notes taskId state) m)
    (hP : ∀ told, P told → told taskId = none) :
    Triple (a.With P) m (fun _ => a.With P) a.Sincere := by
  refine notes taskId fun s hs =>
    ⟨state, hs.1, hm s, .inl (hP _ hs.2), fun told' hothers hsame => ?_⟩
  have hnone : told' taskId = none := by
    cases htask : told' taskId with
    | none => rfl
    | some t =>
      rw [(hsame t htask).2] at hstate
      cases hstate
  have htold : told' = a.toldIn s := by
    funext k
    by_cases hk : k = taskId
    · rw [hk, hnone, hP _ hs.2]
    · exact hothers k hk
  rw [htold]
  exact hs.2

end Account

end Urb
