import Mathlib.Data.Finset.Dedup
import Mathlib.Data.Finset.Insert
import Urb.ForStd.Run
import Urb.Spec.Nursery

/-!
# The executors that a runner starts

`launch_tasks` of the executor runner returns from its loop at the first task whose executor is
running or has no command. The tasks after it are neither tracked nor started.

What matters of the runner are the ids of the tasks and executors that it tracks and the executors
that it has forked, its `Roster`. `launchLoop_roster` shows that the handler acts on the roster as
`Roster.launchAll` does.
-/

namespace Urb.Runner

open EStateM (Leaves Triple)

/-! ## The roster -/

def Effect.forks : Effect → Option String
  | .fork executorId _ _ => some executorId
  | _ => none

/-- The tasks and executors that are tracked, and the executors that were forked. -/
structure Roster where
  tasks : Finset String := ∅
  executors : Finset String := ∅
  forks : List String := []

def ExecutorHandler.roster (s : ExecutorHandler) : Roster where
  tasks := s.taskTracker.keys.toFinset
  executors := s.executorTracker.keys.toFinset
  forks := s.effects.filterMap Effect.forks

namespace Roster

def track (r : Roster) (t : TaskInfo) : Roster := { r with tasks := insert t.taskId r.tasks }

/-- The executor is tracked before it is forked, and stays so if it cannot be forked. -/
def start (r : Roster) (executorId : String) (c : CommandInfo) : Roster where
  tasks := r.tasks
  executors := insert executorId r.executors
  forks := if c.startable executorId then r.forks ++ [executorId] else r.forks

/-- The executor is started unless it is running. -/
def starts (r : Roster) (executor : Option (String × CommandInfo)) :
    Option (String × CommandInfo) :=
  executor.filter (·.1 ∉ r.executors)

/-- The tasks of a message, up to the first one for which no executor is started. -/
def launchAll (config : Config) (r : Roster) : List TaskInfo → Roster
  | [] => r
  | t :: ts =>
    match r.starts (t.toStart config) with
    | none => r.track t
    | some (executorId, c) =>
      let r := (r.track t).start executorId c
      if c.startable executorId then launchAll config r ts else r

end Roster

/-! ## The handler acts on its roster -/

theorem toFinset_keys_insert {β : Type} (k : String) (x : β) (d : Dict β) :
    (d.insert k x).keys.toFinset = insert k d.keys.toFinset := by
  ext k'
  simp only [List.mem_toFinset, Finset.mem_insert, ← AList.mem_keys, AList.mem_insert]

section Tasks

variable (config : Config)

theorem leaves_orRaise {α : Type} (o : Option α) (e : PyError) :
    Leaves ExecutorHandler.taskTracker (orRaise o e : RunnerM α) := by
  cases o with
  | none => exact .throw e
  | some a => exact .pure a

theorem leaves_fetchItems (uris : List Uri) :
    Leaves ExecutorHandler.taskTracker (fetchItems uris) := by
  induction uris with
  | nil => exact .pure _
  | cons u uris ih =>
    exact .bind (.bind (leaves_orRaise _ _) fun _ => .pure _) fun _ => .bind ih fun _ => .pure _

theorem leaves_setVariables (vs : List Variable) :
    Leaves ExecutorHandler.taskTracker (setVariables vs) := by
  induction vs with
  | nil => exact .pure _
  | cons v vs ih =>
    refine .bind (leaves_orRaise _ _) fun _ => .bind (leaves_orRaise _ _) fun _ => .bind ?_ fun _ => ih
    exact .ite (.modify fun _ => rfl) (.throw _)

theorem leaves_forkExecutor (executorId : String) (c : CommandInfo) :
    Leaves ExecutorHandler.taskTracker (forkExecutor config executorId c) := by
  refine .bind ?_ fun _ => .bind (leaves_orRaise _ _) fun _ => .bind ?_ fun _ =>
    .bind ?_ fun _ => .bind .get fun _ => .modify fun _ => rfl
  · unfold fetchCommand
    split
    · exact .bind (leaves_fetchItems _) fun _ => .modify fun _ => rfl
    · exact .pure _
  · exact .ite (.modify fun _ => rfl) (.bind (.modify fun _ => rfl) fun _ => .throw _)
  · unfold setCommandEnv
    split
    · exact .bind (leaves_orRaise _ _) fun _ => leaves_setVariables _
    · exact .pure _

theorem leaves_startExecutor (e : ExecutorInfo) :
    Leaves ExecutorHandler.taskTracker (startExecutor config e) := by
  refine .bind .get fun s => .ite (.pure _) ?_
  split
  · exact .pure _
  · exact .bind (.modify fun _ => rfl) fun _ => .bind (leaves_forkExecutor _ _ _) fun _ => .pure _

theorem tasks_launchTask (t : TaskInfo) (s : ExecutorHandler) :
    ((launchTask config t).after s).taskTracker.keys.toFinset =
      insert t.taskId s.taskTracker.keys.toFinset := by
  have hstart : ∀ (e : ExecutorInfo) (s' : ExecutorHandler),
      ((startExecutor config e).after s').taskTracker = s'.taskTracker :=
    leaves_startExecutor config
  rw [launchTask, taskExecutor]
  cases t.taskCommand with
  | some c =>
    -- the task is tracked again with its new command
    refine (congrArg (·.keys.toFinset) (hstart _ _)).trans ?_
    rw [toFinset_keys_insert, toFinset_keys_insert, Finset.insert_idem]
  | none =>
    cases t.executor with
    | none => exact toFinset_keys_insert _ _ _
    | some e =>
      refine (congrArg (·.keys.toFinset) (hstart _ _)).trans ?_
      exact toFinset_keys_insert _ _ _

end Tasks

theorem roster_eq (s : ExecutorHandler) : s.roster = ⟨s.taskTracker.keys.toFinset,
    s.nursery.executors.keys.toFinset, s.nursery.forks.map Prod.fst⟩ := by
  have hforks : s.effects.filterMap Effect.forks =
      (s.effects.filterMap Effect.forkedWith).map Prod.fst := by
    rw [List.map_filterMap]
    congr 1
    funext e
    cases e <;> rfl
  simp only [ExecutorHandler.roster, ExecutorHandler.nursery, AList.keys_mapVal, hforks]

/-- How an iteration for an executor ends: the loop is left, or the executor is tracked and forked,
    or something raises in between. -/
def Ended (r : Roster) (executor : Option (String × CommandInfo)) (goOn : Bool)
    (s : ExecutorHandler) : Prop :=
  match r.starts executor with
  | none => goOn = false ∧ s.roster = r
  | some (executorId, c) => goOn = c.startable executorId ∧ s.roster = r.start executorId c

theorem ended_of_reared {config : Config} {t : TaskInfo} {executor : Option (String × CommandInfo)}
    {goOn : Bool} {s s' : ExecutorHandler}
    (htasks : s'.taskTracker.keys.toFinset = insert t.taskId s.taskTracker.keys.toFinset)
    (h : Reared config s.nursery executor goOn s') : Ended (s.roster.track t) executor goOn s' := by
  have hstarts : (s.roster.track t).starts executor = s.nursery.starts executor := by
    simp only [Roster.starts, Nursery.starts, Roster.track, roster_eq, List.mem_toFinset,
      AList.mem_keys]
  rw [Ended, hstarts]
  rw [Reared] at h
  cases hx : s.nursery.starts executor with
  | none =>
    rw [hx] at h
    refine ⟨h.1, ?_⟩
    rw [roster_eq s', roster_eq s, h.2, htasks]
    rfl
  | some x =>
    rw [hx] at h
    refine ⟨h.1, ?_⟩
    rw [roster_eq s', roster_eq s, h.2, htasks]
    simp only [Roster.start, Roster.track, Nursery.start, Nursery.fork, toFinset_keys_insert]
    cases x.2.startable x.1 <;> simp

theorem launchTask_spec (config : Config) (t : TaskInfo) (r : Roster) :
    Triple (·.roster = r) (launchTask config t) (Ended (r.track t) (t.toStart config))
      (Ended (r.track t) (t.toStart config) false) := by
  rintro s rfl
  have h := launchTask_nursery config t s.nursery s rfl
  have htasks := tasks_launchTask config t s
  cases hrun : launchTask config t s with
  | ok goOn s' =>
    rw [hrun] at h
    rw [EStateM.after_of_ok hrun] at htasks
    exact ended_of_reared htasks h
  | error e s' =>
    rw [hrun] at h
    rw [EStateM.after_of_error hrun] at htasks
    exact ended_of_reared htasks h

theorem launchLoop_roster (config : Config) (ts : List TaskInfo) (s : ExecutorHandler) :
    ((launchLoop config ts).after s).roster = s.roster.launchAll config ts := by
  induction ts generalizing s with
  | nil => rfl
  | cons t ts ih =>
    have h := launchTask_spec config t s.roster s rfl
    have hstarts : (s.roster.track t).starts (t.toStart config) =
        s.roster.starts (t.toStart config) := rfl
    rw [launchLoop, EStateM.after_bind, Roster.launchAll]
    cases hrun : launchTask config t s with
    | error e s1 =>
      simp only [hrun, Ended, hstarts] at h ⊢
      split at h
      · exact h.2
      · rename_i hc
        simp only [← h.1, Bool.false_eq_true, if_false]
        exact h.2
    | ok goOn s1 =>
      simp only [hrun, Ended, hstarts] at h ⊢
      split at h
      · rw [h.1]
        exact h.2
      · rename_i executorId c hc
        obtain ⟨rfl, hs1⟩ := h
        cases hstart : c.startable executorId with
        | true =>
          simp only [if_true]
          rw [ih, hs1]
        | false => exact hs1

/-! ## What is on the roster -/

namespace Roster

variable {config : Config} {r : Roster} {t : TaskInfo} {ts : List TaskInfo} {executorId id : String}

/-- Every executor that was forked is tracked, and was forked once. -/
structure Sound (r : Roster) : Prop where
  nodup : r.forks.Nodup
  tracked : ∀ id ∈ r.forks, id ∈ r.executors

/-- The message does not end before all its tasks are tracked and their executors are running:
    every executor that is started can be started, and the tasks behind the one that ends the loop
    are on the roster already. -/
def Complete (config : Config) (r : Roster) : List TaskInfo → Prop
  | [] => True
  | t :: ts =>
    match r.starts (t.toStart config) with
    | some (executorId, c) =>
      c.startable executorId = true ∧ Complete config ((r.track t).start executorId c) ts
    | none => ∀ t' ∈ ts, t'.taskId ∈ (r.track t).tasks ∧
        ∀ executor ∈ t'.toStart config, executor.1 ∈ r.executors

theorem notMem_of_starts {executor : String × CommandInfo}
    (h : r.starts (t.toStart config) = some executor) :
    t.toStart config = some executor ∧ executor.1 ∉ r.executors := by
  obtain ⟨h, hnot⟩ := Option.filter_eq_some_iff.mp h
  exact ⟨h, by simpa using hnot⟩

theorem mem_of_not_starts (h : r.starts (t.toStart config) = none) :
    ∀ executor ∈ t.toStart config, executor.1 ∈ r.executors := by
  intro executor hexecutor
  rw [Option.mem_def] at hexecutor
  rw [starts, hexecutor] at h
  by_contra hnot
  simp [Option.filter, hnot] at h

theorem mem_forks_start {c : CommandInfo} :
    id ∈ (r.start executorId c).forks ↔ id ∈ r.forks ∨ (id = executorId ∧ c.startable executorId = true) := by
  cases hc : c.startable executorId <;> simp [start, hc]

theorem Sound.start (h : r.Sound) (hnot : executorId ∉ r.executors)
    (c : CommandInfo) : (r.start executorId c).Sound := by
  constructor
  · simp only [Roster.start]
    split
    · exact List.nodup_append'.mpr ⟨h.nodup, List.nodup_singleton _,
        List.disjoint_singleton.mpr fun hmem => hnot (h.tracked _ hmem)⟩
    · exact h.nodup
  · intro k hk
    rcases mem_forks_start.mp hk with hk | ⟨rfl, -⟩
    · exact Finset.mem_insert_of_mem (h.tracked k hk)
    · exact Finset.mem_insert_self _ _

theorem Sound.track (h : r.Sound) (t : TaskInfo) : (r.track t).Sound := ⟨h.nodup, h.tracked⟩

/-- One roster comes from another by more tasks, executors and forks. -/
structure Extends (r r' : Roster) : Prop where
  tasks : r.tasks ⊆ r'.tasks
  forks : r.forks ⊆ r'.forks

theorem Extends.trans {r1 r2 r3 : Roster} (h : Extends r1 r2) (h' : Extends r2 r3) :
    Extends r1 r3 := ⟨Finset.Subset.trans h.tasks h'.tasks, List.Subset.trans h.forks h'.forks⟩

theorem extends_track (r : Roster) (t : TaskInfo) : Extends r (r.track t) :=
  ⟨Finset.subset_insert _ _, List.Subset.refl _⟩

theorem extends_start (r : Roster) (executorId : String) (c : CommandInfo) :
    Extends r (r.start executorId c) :=
  ⟨Finset.Subset.refl _, fun _ hk => mem_forks_start.mpr (.inl hk)⟩

theorem extends_launchAll (config : Config) (r : Roster) (ts : List TaskInfo) :
    Extends r (r.launchAll config ts) := by
  induction ts generalizing r with
  | nil => exact ⟨Finset.Subset.refl _, List.Subset.refl _⟩
  | cons t ts ih =>
    unfold launchAll
    split
    · exact extends_track r t
    · rename_i executorId c _
      have hstart := (extends_track r t).trans (extends_start _ executorId c)
      dsimp only
      split
      · exact hstart.trans (ih _)
      · exact hstart

theorem Sound.launchAll (h : r.Sound) (ts : List TaskInfo) : (r.launchAll config ts).Sound := by
  induction ts generalizing r with
  | nil => exact h
  | cons t ts ih =>
    unfold Roster.launchAll
    split
    · exact h.track t
    · rename_i executorId c hstarts
      have hstart := (h.track t).start (notMem_of_starts hstarts).2 c
      dsimp only
      split
      · exact ih hstart
      · exact hstart

theorem mem_executors_launchAll (h : id ∈ (r.launchAll config ts).executors) :
    id ∈ r.executors ∨ ∃ t ∈ ts, ∃ executor ∈ t.toStart config, executor.1 = id := by
  induction ts generalizing r with
  | nil => exact .inl h
  | cons t ts ih =>
    unfold launchAll at h
    split at h
    · exact .inl h
    · rename_i executorId c hstarts
      have hstart : id ∈ ((r.track t).start executorId c).executors →
          id ∈ r.executors ∨ ∃ t' ∈ t :: ts, ∃ executor ∈ t'.toStart config, executor.1 = id := by
        intro hid
        rcases Finset.mem_insert.mp hid with rfl | hid
        · exact .inr ⟨t, List.mem_cons_self, _, (notMem_of_starts hstarts).1, rfl⟩
        · exact .inl hid
      dsimp only at h
      split at h
      · rcases ih h with hid | ⟨t', ht', hexecutor⟩
        · exact hstart hid
        · exact .inr ⟨t', List.mem_cons_of_mem _ ht', hexecutor⟩
      · exact hstart h

/-- The task is tracked and its executor was forked. -/
def Has (config : Config) (r : Roster) (t : TaskInfo) : Prop :=
  t.taskId ∈ r.tasks ∧ ∀ executor ∈ t.toStart config, executor.1 ∈ r.forks

theorem Has.of_extends {r' : Roster} (h : r.Has config t) (hext : Extends r r') : r'.Has config t :=
  ⟨hext.tasks h.1, fun executor he => hext.forks (h.2 executor he)⟩

/-- If all executors on the roster are running, a message leaves all its tasks with executors
    exactly if it is complete. -/
theorem has_launchAll_iff (hsound : r.Sound) (hrunning : ∀ id ∈ r.executors, id ∈ r.forks) :
    (∀ t ∈ ts, (r.launchAll config ts).Has config t) ↔ r.Complete config ts := by
  induction ts generalizing r with
  | nil => simp [Complete]
  | cons t ts ih =>
    cases hstarts : r.starts (t.toStart config) with
    | none =>
      -- the loop ends here
      have hlaunch : r.launchAll config (t :: ts) = r.track t := by simp [launchAll, hstarts]
      have hself : (r.track t).Has config t := ⟨Finset.mem_insert_self _ _,
        fun executor he => hrunning _ (mem_of_not_starts hstarts executor he)⟩
      simp only [hlaunch, Complete, hstarts, List.forall_mem_cons, hself, true_and]
      refine forall₂_congr fun t' _ => and_congr_right fun _ => forall₂_congr fun executor _ => ?_
      exact ⟨hsound.tracked _, hrunning _⟩
    | some executor =>
      obtain ⟨executorId, c⟩ := executor
      obtain ⟨htoStart, hnot⟩ := notMem_of_starts hstarts
      simp only [launchAll, Complete, hstarts]
      cases hc : c.startable executorId with
      | false =>
        -- the executor is tracked and never forked
        simp only [Bool.false_eq_true, if_false, false_and, iff_false]
        intro h
        have hforked := (h t List.mem_cons_self).2 _ htoStart
        rcases mem_forks_start.mp hforked with hforked | ⟨-, hstart⟩
        · exact hnot (hsound.tracked _ hforked)
        · rw [hc] at hstart
          cases hstart
      | true =>
        simp only [if_true, true_and]
        have hsound' := (hsound.track t).start hnot c
        have hrunning' : ∀ id ∈ ((r.track t).start executorId c).executors,
            id ∈ ((r.track t).start executorId c).forks := by
          intro id hid
          rcases Finset.mem_insert.mp hid with rfl | hid
          · exact mem_forks_start.mpr (.inr ⟨rfl, hc⟩)
          · exact mem_forks_start.mpr (.inl (hrunning id hid))
        rw [← ih hsound' hrunning', List.forall_mem_cons]
        refine and_iff_right (Has.of_extends ?_ (extends_launchAll config _ ts))
        refine ⟨Finset.mem_insert_self _ _, fun executor he => ?_⟩
        cases htoStart.symm.trans he
        exact mem_forks_start.mpr (.inr ⟨rfl, hc⟩)

end Roster

/-! ## A small runner -/

namespace Sample

def config : Config where
  urbLibPath := "liburb.so"
  commandExecutorPath := "urb-command-executor"
  ldLibraryPath := "/lib"
  mesosWorkDir := "/tmp"
  frameworkId := "framework"
  slaveId := "slave"
  user := "user"

/-- A task of an executor with a command. -/
def task (taskId executorId : String) : TaskInfo where
  taskId
  executor := some { executorId, command := some { value := some executorId } }

end Sample

/-! ## Runs -/

/-- The runner, with the tasks of the messages that it has received. -/
structure Watch where
  handler : ExecutorHandler
  received : List TaskInfo := []

namespace Watch

variable {w : Watch}

variable {config : Config}

/-- A message arrives, unless the process has ended. -/
def step (config : Config) (w : Watch) (message : Option (List TaskInfo)) : Watch :=
  if w.handler.shutdown then w
  else
    { handler := (launchTasks config message).after w.handler
      received := w.received ++ message.getD [] }

/-- The runner starts with nothing tracked. -/
def start (environ : Dict String) : Watch where
  handler := { environ }

/-- Every task that was received is tracked, and its executor, if it has a command, was forked
    exactly once. -/
def StartsNeeded (config : Config) (w : Watch) : Prop :=
  ∀ t ∈ w.received, t.taskId ∈ w.handler.taskTracker ∧
    ∀ executor ∈ t.toStart config, w.handler.roster.forks.count executor.1 = 1

/-- The message does not end before all its tasks are tracked and have executors. -/
def Complete (config : Config) (w : Watch) (message : Option (List TaskInfo)) : Prop :=
  w.handler.shutdown = true ∨ w.handler.roster.Complete config (message.getD [])

structure Sound (config : Config) (w : Watch) : Prop where
  roster : w.handler.roster.Sound
  needed : ∀ id ∈ w.handler.roster.executors,
    ∃ t ∈ w.received, ∃ executor ∈ t.toStart config, executor.1 = id

theorem roster_launchTasks (config : Config) (message : Option (List TaskInfo))
    (s : ExecutorHandler) :
    ((launchTasks config message).after s).roster =
      s.roster.launchAll config (message.getD []) := by
  cases message with
  | none => rfl
  | some ts => exact launchLoop_roster config ts s

theorem Sound.step (h : w.Sound config) (message : Option (List TaskInfo)) :
    (w.step config message).Sound config := by
  unfold Watch.step
  split
  · exact h
  · constructor
    · rw [roster_launchTasks]
      exact h.roster.launchAll _
    · intro id hid
      rw [roster_launchTasks] at hid
      rcases Roster.mem_executors_launchAll hid with hid | ⟨t, ht, hexecutor⟩
      · obtain ⟨t, ht, hexecutor⟩ := h.needed id hid
        exact ⟨t, List.mem_append_left _ ht, hexecutor⟩
      · exact ⟨t, List.mem_append_right _ ht, hexecutor⟩

theorem startsNeeded_iff_has (h : w.Sound config) :
    w.StartsNeeded config ↔ ∀ t ∈ w.received, w.handler.roster.Has config t := by
  refine forall₂_congr fun t _ =>
    and_congr List.mem_toFinset.symm (forall₂_congr fun executor _ => ?_)
  rw [List.Nodup.count h.roster.nodup]
  simp

theorem startsNeeded_step_iff (h : w.Sound config) (hneeded : w.StartsNeeded config)
    (message : Option (List TaskInfo)) :
    (w.step config message).StartsNeeded config ↔ w.Complete config message := by
  have hhas := (startsNeeded_iff_has h).mp hneeded
  rw [startsNeeded_iff_has (h.step message)]
  by_cases hshutdown : w.handler.shutdown = true
  · simp only [Watch.step, Complete, hshutdown, if_true, true_or, iff_true]
    exact hhas
  · have hrunning : ∀ id ∈ w.handler.roster.executors, id ∈ w.handler.roster.forks := by
      intro id hid
      obtain ⟨t, ht, executor, hexecutor, rfl⟩ := h.needed id hid
      exact (hhas t ht).2 executor hexecutor
    rw [Complete, or_iff_right hshutdown, ← Roster.has_launchAll_iff h.roster hrunning]
    simp only [Watch.step, hshutdown, if_false, Bool.false_eq_true, roster_launchTasks,
      List.forall_mem_append]
    exact and_iff_right fun t ht => (hhas t ht).of_extends (Roster.extends_launchAll config _ _)

/-- After every message all tasks received so far are tracked and all their executors were forked
    once, exactly if every message is complete. -/
theorem executors_started_iff (config : Config) (environ : Dict String)
    (messages : List (Option (List TaskInfo))) :
    Run.Meets (step config) (fun w m => (w.step config m).StartsNeeded config) (start environ)
        messages ↔
      Run.Meets (step config) (Complete config) (start environ) messages := by
  have hinv : ∀ w m, Sound config w → Sound config (step config w m) := fun _ m h => h.step m
  have hstep : ∀ w m, Sound config w → StartsNeeded config w →
      (StartsNeeded config (step config w m) ↔ Complete config w m) :=
    fun _ m h hneeded => startsNeeded_step_iff h hneeded m
  have hstart : Sound config (start environ) := by
    refine ⟨⟨List.nodup_nil, fun id hid => absurd hid List.not_mem_nil⟩, fun id hid => ?_⟩
    exact absurd hid (Finset.notMem_empty id)
  exact Run.meets_iff hinv hstep hstart fun t ht => absurd ht List.not_mem_nil

/-- The runner forks no executor twice, and none that no task asked for. -/
theorem executors_started_once (config : Config) (environ : Dict String)
    (messages : List (Option (List TaskInfo))) :
    let w := messages.foldl (step config) (start environ)
    w.handler.roster.forks.Nodup ∧ ∀ id ∈ w.handler.roster.forks,
      ∃ t ∈ w.received, ∃ executor ∈ t.toStart config, executor.1 = id := by
  have hsound : (messages.foldl (step config) (start environ)).Sound config :=
    Run.invariant (fun _ m h _ => h.step m)
      ⟨⟨List.nodup_nil, nofun⟩, fun id hid => absurd hid (Finset.notMem_empty id)⟩
      (Run.meets_of_forall (fun _ _ => trivial) _ messages)
  exact ⟨hsound.roster.nodup, fun id hid => hsound.needed id (hsound.roster.tracked id hid)⟩

/-- Two tasks of one executor and one of another: the loop ends at the second task, and the third
    one is not known to the runner. -/
theorem executor_not_started :
    let w := step Sample.config (start ∅)
      (some [Sample.task "a" "e", Sample.task "b" "e", Sample.task "c" "f"])
    w.handler.taskTracker.keys = ["b", "a"] ∧ w.handler.roster.forks = ["e"] ∧
      ¬w.StartsNeeded Sample.config := by
  intro w
  have hkeys : w.handler.taskTracker.keys = ["b", "a"] := by decide +kernel
  refine ⟨hkeys, by decide +kernel, fun h => ?_⟩
  have htracked := (h (Sample.task "c" "f") (by decide +kernel)).1
  rw [AList.mem_keys, hkeys] at htracked
  revert htracked
  decide

end Watch

end Urb.Runner
