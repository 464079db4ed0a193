import Urb.ForStd.AList
import Urb.ForStd.EStateM
import Urb.Native.ExecutorHandler

/-!
# The nursery of a runner

What matters of the executor runner are its environment, the commands of the executors that it
tracks and the environments of those that it has forked, its `Nursery`. `launchLoop_nursery` shows
that the handler acts on it as `Nursery.launchAll` does.
-/

namespace Urb.Runner

open EStateM (Triple)

variable (config : Config) (executorId : String) (c : CommandInfo)

/-! ## The environment of an executor of its own -/

/-- The name and the value are there, and can be stored in the environment. -/
def Variable.settable (v : Variable) : Bool := v.name.any puttable && v.value.any puttable

/-- All that is read of the environment of a command is there. -/
def Environment.readable (e : Environment) : Bool :=
  match e.variableList with
  | some vs => vs.all Variable.settable
  | none => false

/-- All that is read of an executor and its command before the fork is there, and can be stored in
    the environment. -/
def CommandInfo.startable (executorId : String) (c : CommandInfo) : Bool :=
  (c.uris.getD []).all (·.value.isSome) && c.value.isSome && puttable executorId &&
    (c.environment.map Environment.readable).getD true

def ExecutorInfo.toStart (e : ExecutorInfo) : Option (String × CommandInfo) :=
  e.command.map fun c => (e.executorId, c)

/-- The executor of a task and its command, if it has one. -/
def TaskInfo.toStart (config : Config) (t : TaskInfo) : Option (String × CommandInfo) :=
  match t.taskCommand with
  | some c => some (t.taskId, { c with value := some config.commandExecutorPath })
  | none => t.executor.bind ExecutorInfo.toStart

/-- The variables that are set one after the other, up to the first one that cannot be set. -/
def assignments : List Variable → List (String × String)
  | [] => []
  | v :: vs =>
    match v.name, v.value with
    | some name, some value =>
      if puttable name && puttable value then (name, value) :: assignments vs else []
    | _, _ => []

def CommandInfo.assignments (c : CommandInfo) : List (String × String) :=
  Runner.assignments ((c.environment.bind (·.variableList)).getD [])

def assign (as : List (String × String)) (env : Dict String) : Dict String :=
  as.foldl (fun env a => env.insert a.1 a.2) env

/-- The environment that an executor gets if the one of the runner is `env`. -/
def ownEnviron (config : Config) (env : Dict String) (executorId : String) (c : CommandInfo) :
    Dict String :=
  assign c.assignments (execEnv config executorId env)

/-! ## The nursery -/

/-- The environment of the runner, the commands of the executors that it tracks, and the executors
    that were forked, with their environments. -/
structure Nursery where
  environ : Dict String
  executors : Dict CommandInfo := ∅
  forks : List (String × Dict String) := []

def Effect.forkedWith : Effect → Option (String × Dict String)
  | .fork executorId _ environ => some (executorId, environ)
  | _ => none

def ExecutorHandler.nursery (s : ExecutorHandler) : Nursery where
  environ := s.environ
  executors := s.executorTracker.mapVal (·.command)
  forks := s.effects.filterMap Effect.forkedWith

/-- What is read of a command before the environment is touched is there. -/
def CommandInfo.fetchable (c : CommandInfo) : Bool :=
  (c.uris.getD []).all (·.value.isSome) && c.value.isSome

namespace Nursery

/-- The environment is changed for an executor, and the executor is forked, as far as its command
    can be read. -/
def fork (config : Config) (n : Nursery) (executorId : String) (c : CommandInfo) : Nursery where
  environ :=
    if c.fetchable then
      if puttable executorId then ownEnviron config n.environ executorId c
      else runnerEnv config n.environ
    else n.environ
  executors := n.executors
  forks :=
    if c.startable executorId then n.forks ++ [(executorId, ownEnviron config n.environ executorId c)]
    else n.forks

/-- The executor is tracked before it is forked, and stays so if it cannot be forked. -/
def start (config : Config) (n : Nursery) (executorId : String) (c : CommandInfo) : Nursery :=
  { n with executors := n.executors.insert executorId c }.fork config executorId c

/-- The executor is started unless it is running. -/
def starts (n : Nursery) (executor : Option (String × CommandInfo)) :
    Option (String × CommandInfo) :=
  executor.filter (·.1 ∉ n.executors)

/-- The tasks of a message, up to the first one for which no executor is started. -/
def launchAll (config : Config) (n : Nursery) : List TaskInfo → Nursery
  | [] => n
  | t :: ts =>
    match n.starts (t.toStart config) with
    | none => n
    | some (executorId, c) =>
      let n := n.start config executorId c
      if c.startable executorId then launchAll config n ts else n

end Nursery

/-! ## The handler acts on its nursery -/

theorem nursery_setEnviron (g : Dict String → Dict String) (s : ExecutorHandler) :
    { s with environ := g s.environ }.nursery =
      { s.nursery with environ := g s.nursery.environ } := rfl

theorem setVariables_spec (vs : List Variable) (n : Nursery) :
    Triple (·.nursery = n) (setVariables vs)
      (fun _ s => vs.all Variable.settable = true ∧
        s.nursery = { n with environ := assign (assignments vs) n.environ })
      (fun s => vs.all Variable.settable = false ∧
        s.nursery = { n with environ := assign (assignments vs) n.environ }) := by
  induction vs generalizing n with
  | nil => exact .pure fun s hs => ⟨rfl, hs⟩
  | cons v vs ih =>
    unfold setVariables
    cases hname : v.name with
    | none =>
      exact fun s hs => ⟨by simp [Variable.settable, hname],
        by simpa [assignments, assign, hname] using hs⟩
    | some name =>
      cases hvalue : v.value with
      | none =>
        exact fun s hs => ⟨by simp [Variable.settable, hvalue],
          by simpa [assignments, assign, hname, hvalue] using hs⟩
      | some value =>
        simp only [List.all_cons, Variable.settable, hname, hvalue, Option.any_some, assignments]
        show Triple _ (putenv name value >>= fun _ => setVariables vs) _ _
        unfold putenv
        cases hput : puttable name && puttable value with
        | false =>
          simp only [Bool.false_and, Bool.false_eq_true, if_false]
          exact fun s hs => ⟨trivial, hs⟩
        | true =>
          simp only [Bool.true_and, if_true]
          refine .bind (R := fun _ s => s.nursery =
            { n with environ := n.environ.insert name value }) (.modify ?_) fun _ => ih _
          rintro s rfl
          rfl

theorem setCommandEnv_spec (n : Nursery) : Triple (·.nursery = n) (setCommandEnv c)
      (fun _ s => (c.environment.map Environment.readable).getD true = true ∧
        s.nursery = { n with environ := assign c.assignments n.environ })
      (fun s => (c.environment.map Environment.readable).getD true = false ∧
        s.nursery = { n with environ := assign c.assignments n.environ }) := by
  unfold setCommandEnv CommandInfo.assignments
  cases c.environment with
  | none => exact .pure fun s hs => ⟨rfl, hs⟩
  | some environment =>
    rw [Option.map_some, Option.getD_some, Environment.readable, Option.bind_some]
    dsimp only
    cases environment.variableList with
    | none => exact .throw fun s hs => ⟨rfl, hs⟩
    | some vs => exact setVariables_spec vs n

/-- The computation leaves the nursery alone, and returns exactly if the check holds. -/
def Reads {α : Type} (check : Bool) (m : RunnerM α) : Prop :=
  ∀ n, Triple (·.nursery = n) m (fun _ s => check = true ∧ s.nursery = n)
    (fun s => check = false ∧ s.nursery = n)

theorem fetchItems_reads (uris : List Uri) :
    Reads (uris.all (·.value.isSome)) (fetchItems uris) := by
  intro n
  induction uris with
  | nil => exact .pure fun s hs => ⟨rfl, hs⟩
  | cons u uris ih =>
    unfold fetchItems fetchItem
    cases hvalue : u.value with
    | none => exact fun s hs => ⟨by simp [hvalue], hs⟩
    | some value =>
      simp only [List.all_cons, hvalue, Option.isSome_some, Bool.true_and]
      refine .bind (R := fun _ (s : ExecutorHandler) => s.nursery = n) (fun s hs => hs)
        fun item => ?_
      exact .bind ih fun items => .pure fun s hs => hs

theorem fetchCommand_reads :
    Reads ((c.uris.getD []).all (·.value.isSome)) (fetchCommand config c) := by
  intro n
  unfold fetchCommand
  cases c.uris with
  | none => exact .pure fun s hs => ⟨rfl, hs⟩
  | some uris =>
    refine .bind (fetchItems_reads uris n) fun items => .modify ?_
    rintro s ⟨hall, rfl⟩
    exact ⟨hall, by simp [ExecutorHandler.nursery, Effect.forkedWith]⟩

theorem forkExecutor_nursery (n : Nursery) :
    Triple (·.nursery = n) (forkExecutor config executorId c)
      (fun _ s => c.startable executorId = true ∧ s.nursery = n.fork config executorId c)
      (fun s => c.startable executorId = false ∧ s.nursery = n.fork config executorId c) := by
  unfold forkExecutor Nursery.fork CommandInfo.startable CommandInfo.fetchable
  refine .bind ((fetchCommand_reads config c n).weaken (fun _ h => h)
    (fun _ _ h => h) ?_) fun _ => ?_
  · rintro s ⟨huris, rfl⟩
    simp [huris]
  cases hvalue : c.value with
  | none =>
    rintro s ⟨huris, rfl⟩
    show _ = false ∧ _
    simp
  | some value =>
    show Triple _ (setExecEnv config executorId >>= fun _ => setCommandEnv c >>=
      fun _ => get >>= fun s => emit (.fork executorId value s.environ)) _ _
    unfold setExecEnv
    cases hput : puttable executorId with
    | false =>
      rintro s ⟨huris, rfl⟩
      show _ = false ∧ _
      simp only [Bool.and_false, Bool.false_and, huris, Option.isSome_some, Bool.and_self,
        Bool.false_eq_true, if_true, if_false, true_and]
      exact nursery_setEnviron (runnerEnv config) s
    | true =>
      -- the environment of the runner is the one of the executor from here on
      have hown : ownEnviron config n.environ executorId c =
        assign c.assignments (execEnv config executorId n.environ) := by rw [ownEnviron]
      have hset : ∀ s : ExecutorHandler, s.nursery = n →
          { s with environ := execEnv config executorId s.environ }.nursery =
            { n with environ := execEnv config executorId n.environ } := by
        rintro s rfl
        exact nursery_setEnviron (execEnv config executorId) s
      rw [hown]
      generalize execEnv config executorId n.environ = base at hset ⊢
      refine Triple.bind (R := fun _ s => (c.uris.getD []).all (·.value.isSome) = true ∧
        s.nursery = { n with environ := base }) (.modify ?_) fun _ => ?_
      · exact fun s ⟨huris, hs⟩ => ⟨huris, hset s hs⟩
      · rintro s ⟨huris, hs⟩
        simp only [huris, Option.isSome_some, Bool.and_self, Bool.true_and, if_true]
        refine Triple.bind ((setCommandEnv_spec c _).weaken (fun _ h => h)
          (fun _ _ h => h) ?_)
          (fun _ => .get_bind fun s1 h1 => .modify ?_) s hs
        · rintro s1 ⟨hread, hs1⟩
          simp [hread, hs1]
        · rintro s2 rfl
          obtain ⟨hread, hs1⟩ := h1
          simp only [ExecutorHandler.nursery, Nursery.mk.injEq] at hs1
          obtain ⟨henviron, hexecutors, hforks⟩ := hs1
          simp [hread, ExecutorHandler.nursery, henviron, hexecutors, hforks, Effect.forkedWith]

/-- How an iteration for an executor ends: the loop is left, or the executor is tracked and forked,
    or something raises in between. -/
def Reared (config : Config) (n : Nursery) (executor : Option (String × CommandInfo)) (goOn : Bool)
    (s : ExecutorHandler) : Prop :=
  match n.starts executor with
  | none => goOn = false ∧ s.nursery = n
  | some (executorId, c) => goOn = c.startable executorId ∧ s.nursery = n.start config executorId c

theorem startExecutor_nursery (e : ExecutorInfo) (n : Nursery) :
    Triple (·.nursery = n) (startExecutor config e) (Reared config n e.toStart)
      (Reared config n e.toStart false) := by
  refine .get_bind fun s hs => .ite (fun hmem => .pure ?_) fun hnot => ?_
  · rintro s' rfl
    have hmem : e.executorId ∈ n.executors := by
      rw [← hs]
      exact AList.mem_mapVal.mpr hmem
    have hstarts : n.starts e.toStart = none := by
      cases hc : e.command <;> simp [Nursery.starts, ExecutorInfo.toStart, hc, hmem, Option.filter]
    simp only [Reared, hstarts, hs, and_self]
  have hnot : e.executorId ∉ n.executors := by
    rw [← hs]
    exact fun h => hnot (AList.mem_mapVal.mp h)
  cases hc : e.command with
  | none =>
    rintro s' rfl
    have hstarts : n.starts e.toStart = none := by simp [Nursery.starts, ExecutorInfo.toStart, hc]
    show Reared config n e.toStart false s'
    simp only [Reared, hstarts, hs, and_self]
  | some c =>
    have hstarts : n.starts e.toStart = some (e.executorId, c) := by
      simp [Nursery.starts, ExecutorInfo.toStart, hc, hnot, Option.filter]
    let tracked : Nursery := { n with executors := n.executors.insert e.executorId c }
    refine Triple.bind (R := fun _ s => s.nursery = tracked) (.modify ?_) fun _ => ?_
    · rintro s' rfl
      simp only [tracked, ← hs, ExecutorHandler.nursery, AList.mapVal_insert]
    · refine .bind ((forkExecutor_nursery config e.executorId c tracked).weaken (fun _ h => h)
        (fun _ _ h => h) ?_) fun _ => .pure ?_
      · rintro s' ⟨hstart, hs'⟩
        simp only [Reared, hstarts]
        exact ⟨hstart.symm, hs'⟩
      · rintro s' ⟨hstart, hs'⟩
        simp only [Reared, hstarts]
        exact ⟨hstart.symm, hs'⟩

theorem taskExecutor_nursery (t : TaskInfo) (n : Nursery) :
    Triple (·.nursery = n) (taskExecutor config t)
      (fun e s => e.toStart = t.toStart config ∧ s.nursery = n)
      (fun s => t.toStart config = none ∧ s.nursery = n) := by
  unfold taskExecutor TaskInfo.toStart
  cases t.taskCommand with
  | some c =>
    exact .bind (R := fun _ s => s.nursery = n) (.modify fun s hs => hs)
      fun _ => .pure fun s hs => ⟨rfl, hs⟩
  | none =>
    cases t.executor with
    | none => exact .throw fun s hs => ⟨rfl, hs⟩
    | some e => exact .pure fun s hs => ⟨rfl, hs⟩

theorem launchTask_nursery (t : TaskInfo) (n : Nursery) :
    Triple (·.nursery = n) (launchTask config t) (Reared config n (t.toStart config))
      (Reared config n (t.toStart config) false) := by
  refine .bind (R := fun _ s => s.nursery = n) (.modify fun s hs => hs) fun _ => ?_
  refine .bind ((taskExecutor_nursery config t n).weaken (fun _ h => h) (fun _ _ h => h) ?_)
    fun e => ?_
  · rintro s ⟨hnone, hs⟩
    simp [Reared, hnone, hs, Nursery.starts]
  · rintro s ⟨he, hs⟩
    rw [← he]
    exact startExecutor_nursery config e n s hs

theorem launchLoop_nursery (ts : List TaskInfo) (s : ExecutorHandler) :
    ((launchLoop config ts).after s).nursery = s.nursery.launchAll config ts := by
  induction ts generalizing s with
  | nil => rfl
  | cons t ts ih =>
    have h := launchTask_nursery config t s.nursery s rfl
    rw [launchLoop, EStateM.after_bind, Nursery.launchAll]
    cases hrun : launchTask config t s with
    | error e s1 =>
      simp only [hrun, Reared] at h ⊢
      split at h
      · exact h.2
      · simp only [← h.1, Bool.false_eq_true, if_false]
        exact h.2
    | ok goOn s1 =>
      simp only [hrun, Reared] at h ⊢
      split at h
      · rw [h.1]
        exact h.2
      · rename_i executorId c hc
        obtain ⟨rfl, hs1⟩ := h
        cases hstart : c.startable executorId with
        | true =>
          simp only [if_true]
          rw [ih, hs1]
        | false => exact hs1

end Urb.Runner
