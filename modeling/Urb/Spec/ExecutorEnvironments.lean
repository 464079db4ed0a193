import Mathlib
import Urb.Spec.ExecutorsStarted

/-!
# The environments of executors

`launch_tasks` of the executor runner builds the environment of an executor in `os.environ` itself,
so that it starts from what earlier executors left there.

An executor should get the environment that it would get if it were the first one,
`ownEnviron`: the one of the runner at start-up, changed by the settings of the runner, the id of
the executor and the variables of its command.
-/

namespace Urb.Runner

open EStateM (Triple)

variable {f : String × Dict String} {s : ExecutorHandler}

variable (config : Config) (executorId : String) (c : CommandInfo) (env env' : Dict String)
  (key : String)

/-! ## The variables that are set for every executor -/

/-- Two dictionaries hold the same variables. -/
def SameEnviron (env env' : Dict String) : Prop := ∀ key, env.lookup key = env'.lookup key

/-- Variables that are removed. -/
def droppedKeys : List String := ["_", "SHLVL", "PWD", "LS_COLORS"]

/-- Variables that are set whatever they were before. -/
def settings (config : Config) (executorId : String) : List (String × String) :=
  [("URB_SLAVE_ID", config.slaveId), ("URB_FRAMEWORK_ID", config.frameworkId),
    ("URB_EXECUTOR_ID", executorId), ("MESOS_DIRECTORY", config.mesosWorkDir),
    ("MESOS_FRAMEWORK_ID", config.frameworkId), ("MESOS_EXECUTOR_ID", executorId),
    ("MESOS_SLAVE_ID", config.slaveId), ("USER", config.user)]

/-- Variables that are set if they are missing. -/
def defaults (config : Config) : List (String × String) :=
  [("MESOS_NATIVE_LIBRARY", config.urbLibPath), ("MESOS_NATIVE_JAVA_LIBRARY", config.urbLibPath),
    ("MESOS_EXECUTOR_SHUTDOWN_GRACE_PERIOD", "60secs"), ("GLOG_log_dir", config.mesosWorkDir)]

/-- All variables that `launch_tasks` changes for an executor. -/
def managedKeys : List String := droppedKeys ++
  ["URB_SLAVE_ID", "URB_FRAMEWORK_ID", "URB_EXECUTOR_ID", "MESOS_DIRECTORY", "MESOS_FRAMEWORK_ID",
    "MESOS_EXECUTOR_ID", "MESOS_SLAVE_ID", "USER", "MESOS_NATIVE_LIBRARY",
    "MESOS_NATIVE_JAVA_LIBRARY", "MESOS_EXECUTOR_SHUTDOWN_GRACE_PERIOD", "GLOG_log_dir",
    "MESOS_SLAVE_PID", "LD_LIBRARY_PATH"]

/-- The `MESOS_SLAVE_PID` is made from the endpoint of the agent, if there is one. -/
def slavePid (env : Dict String) : Option String :=
  ((env.lookup "MESOS_AGENT_ENDPOINT").map ("@" ++ ·)).or (env.lookup "MESOS_SLAVE_PID")

/-- The default is appended to the `LD_LIBRARY_PATH`, unless it is the default itself. -/
def libraryPath (config : Config) (env : Dict String) : String :=
  match env.lookup "LD_LIBRARY_PATH" with
  | some path =>
    if path ≠ config.ldLibraryPath then path ++ ":" ++ config.ldLibraryPath
    else config.ldLibraryPath
  | none => config.ldLibraryPath

theorem lookup_setMissing (value : String) (env : Dict String) (key' : String) :
    (setMissing key value env).lookup key' =
      if key' = key then some ((env.lookup key).getD value) else env.lookup key' := by
  unfold setMissing
  by_cases hmem : key ∈ env
  · obtain ⟨old, hold⟩ := Option.isSome_iff_exists.mp (AList.lookup_isSome.mpr hmem)
    rw [if_pos hmem]
    split
    · next h => rw [h, hold, Option.getD_some]
    · rfl
  · have hnone : env.lookup key = none := AList.lookup_eq_none.mpr hmem
    rw [if_neg hmem, AList.lookup_insert_eq_ite, hnone, Option.getD_none]

theorem libraryPath_eq_iff : libraryPath config env = libraryPath config env' ↔
      (env.lookup "LD_LIBRARY_PATH").getD config.ldLibraryPath =
        (env'.lookup "LD_LIBRARY_PATH").getD config.ldLibraryPath := by
  have hpath : ∀ env : Dict String, libraryPath config env =
      let path := (env.lookup "LD_LIBRARY_PATH").getD config.ldLibraryPath
      if path ≠ config.ldLibraryPath then path ++ ":" ++ config.ldLibraryPath
      else config.ldLibraryPath := by
    intro env
    unfold libraryPath
    cases env.lookup "LD_LIBRARY_PATH" <;> simp
  -- a path with the default appended is longer than the default
  have hlonger : ∀ path : String, path ++ ":" ++ config.ldLibraryPath ≠ config.ldLibraryPath := by
    intro path h
    have hlength := congrArg String.length h
    have hcolon : ":".length = 1 := rfl
    simp only [String.length_append, hcolon] at hlength
    omega
  have hcancel : ∀ path path' : String,
      path ++ ":" ++ config.ldLibraryPath = path' ++ ":" ++ config.ldLibraryPath ↔
        path = path' := by
    intro path path'
    constructor
    · intro h
      have hlist := congrArg String.toList h
      simp only [String.toList_append] at hlist
      exact String.toList_injective (List.append_cancel_right (List.append_cancel_right hlist))
    · exact fun h => by rw [h]
  rw [hpath, hpath]
  dsimp only
  generalize (env.lookup "LD_LIBRARY_PATH").getD config.ldLibraryPath = path
  generalize (env'.lookup "LD_LIBRARY_PATH").getD config.ldLibraryPath = path'
  by_cases h : path = config.ldLibraryPath <;> by_cases h' : path' = config.ldLibraryPath
  · simp [h, h']
  · simp only [h, h', ne_eq, not_true_eq_false, not_false_eq_true, if_true, if_false]
    exact ⟨fun heq => absurd heq.symm (hlonger path'), fun heq => absurd heq.symm h'⟩
  · simp only [h, h', ne_eq, not_true_eq_false, not_false_eq_true, if_true, if_false]
    exact iff_of_false (hlonger path) not_false
  · simp only [h, h', ne_eq, not_false_eq_true, if_true]
    exact hcancel path path'

theorem lookup_setSlavePid : (setSlavePid env).lookup key =
      if key = "MESOS_SLAVE_PID" then slavePid env else env.lookup key := by
  unfold setSlavePid slavePid
  cases env.lookup "MESOS_AGENT_ENDPOINT" with
  | some endpoint => exact AList.lookup_insert_eq_ite env _ key _
  | none =>
    show env.lookup key =
      if key = "MESOS_SLAVE_PID" then env.lookup "MESOS_SLAVE_PID" else env.lookup key
    split
    · next h => rw [h]
    · rfl

theorem lookup_setLibraryPath : (setLibraryPath config env).lookup key =
      if key = "LD_LIBRARY_PATH" then some (libraryPath config env) else env.lookup key := by
  unfold setLibraryPath libraryPath
  cases env.lookup "LD_LIBRARY_PATH" with
  | none => exact AList.lookup_insert_eq_ite env _ key _
  | some path =>
    dsimp only
    split <;> exact AList.lookup_insert_eq_ite env _ key _

/-- The variables that are set for every executor, key by key. -/
theorem lookup_execEnv : (execEnv config executorId env).lookup key =
      if key ∈ droppedKeys then none
      else if key = "MESOS_SLAVE_PID" then slavePid env
      else if key = "LD_LIBRARY_PATH" then some (libraryPath config env)
      else ((settings config executorId).lookup key).or
        (match (defaults config).lookup key with
          | some value => some ((env.lookup key).getD value)
          | none => env.lookup key) := by
  unfold execEnv
  extract_lets env1 env2 env3 env4 env5 env6 env7 env8 env9 env10 env11
  -- each step by the lookups after it, so that the earlier dictionaries can be forgotten
  have h1 : ∀ k, env1.lookup k = ((((droppedKeys.foldl (fun env key => env.erase key) env).insert
    "URB_SLAVE_ID" config.slaveId).insert "URB_FRAMEWORK_ID" config.frameworkId).insert
      "URB_EXECUTOR_ID" executorId).lookup k := fun _ => rfl
  have h3 : ∀ k, env3.lookup k = (setMissing "MESOS_NATIVE_JAVA_LIBRARY" config.urbLibPath
    (setMissing "MESOS_NATIVE_LIBRARY" config.urbLibPath env1)).lookup k := fun _ => rfl
  have h6 : ∀ k, env6.lookup k = (((env3.insert "MESOS_DIRECTORY" config.mesosWorkDir).insert
    "MESOS_FRAMEWORK_ID" config.frameworkId).insert "MESOS_EXECUTOR_ID" executorId).lookup k :=
    fun _ => rfl
  clear_value env6 env5 env4 env3 env2 env1
  have h7 : env7 = setSlavePid env6 := rfl
  have h9 : ∀ k, env9.lookup k = ((setMissing "MESOS_EXECUTOR_SHUTDOWN_GRACE_PERIOD" "60secs"
    env7).insert "MESOS_SLAVE_ID" config.slaveId).lookup k := fun _ => rfl
  clear_value env9 env8 env7
  have h11 : env11 = (setLibraryPath config env9).insert "USER" config.user := rfl
  clear_value env11 env10
  have hpid : slavePid env6 = slavePid env := by
    simp [slavePid, h6, h3, h1, droppedKeys, lookup_setMissing]
  have hpath : libraryPath config env9 = libraryPath config env := by
    simp [libraryPath, h9, h7, lookup_setSlavePid, h6, h3, h1, droppedKeys, lookup_setMissing]
  rw [lookup_setMissing, h11, AList.lookup_insert_eq_ite, AList.lookup_insert_eq_ite,
    lookup_setLibraryPath, lookup_setLibraryPath, hpath]
  by_cases hkey : key ∈ managedKeys
  · simp only [managedKeys, droppedKeys, List.mem_append, List.mem_cons, List.not_mem_nil,
      or_false] at hkey
    rcases hkey with (rfl | rfl | rfl | rfl) | rfl | rfl | rfl | rfl | rfl | rfl | rfl | rfl | rfl |
      rfl | rfl | rfl | rfl | rfl
    all_goals
      simp [h9, h7, lookup_setSlavePid, hpid, h6, h3, h1, lookup_setMissing, droppedKeys,
        settings, defaults, List.lookup]
  · simp only [managedKeys, droppedKeys, List.mem_append, List.mem_cons, List.not_mem_nil,
      or_false, not_or] at hkey
    have hsettings : (settings config executorId).lookup key = none := by
      simp [List.lookup_eq_none_iff, settings, hkey]
    have hdefaults : (defaults config).lookup key = none := by
      simp [List.lookup_eq_none_iff, defaults, hkey]
    simp [hkey, h9, h7, lookup_setSlavePid, h6, h3, h1, lookup_setMissing, droppedKeys,
      hsettings, hdefaults]

/-! ## The environment of an executor of its own -/

theorem lookup_assign_eq_iff (as : List (String × String)) (env env' : Dict String) (key : String) :
    (assign as env).lookup key = (assign as env').lookup key ↔
      key ∈ as.map Prod.fst ∨ env.lookup key = env'.lookup key := by
  induction as generalizing env env' with
  | nil => simp [assign]
  | cons a as ih =>
    have h := ih (env.insert a.1 a.2) (env'.insert a.1 a.2)
    rw [AList.lookup_insert_eq_ite, AList.lookup_insert_eq_ite] at h
    refine h.trans ?_
    by_cases hkey : key = a.1
    · simp [hkey]
    · simp [hkey]

/-- The variables whose values matter only up to a default. -/
def overridable (config : Config) : List (String × String) :=
  ("LD_LIBRARY_PATH", config.ldLibraryPath) :: defaults config

/-- An executor inherits the same value of a variable from two environments. Those that are removed
    or set anyway do not matter, and a missing one counts as its default. -/
def AgreeOn (config : Config) (env env' : Dict String) (key : String) : Prop :=
  if key ∈ droppedKeys ∨ key ∈ (settings config "").map Prod.fst then True
  else if key = "MESOS_SLAVE_PID" then slavePid env = slavePid env'
  else
    match (overridable config).lookup key with
    | some value => (env.lookup key).getD value = (env'.lookup key).getD value
    | none => env.lookup key = env'.lookup key

theorem lookup_execEnv_eq_iff :
    (execEnv config executorId env).lookup key = (execEnv config executorId env').lookup key ↔
      AgreeOn config env env' key := by
  rw [lookup_execEnv, lookup_execEnv]
  unfold AgreeOn
  by_cases hdropped : key ∈ droppedKeys
  · simp [hdropped]
  by_cases hpid : key = "MESOS_SLAVE_PID"
  · subst hpid
    simp [settings, droppedKeys]
  by_cases hpath : key = "LD_LIBRARY_PATH"
  · subst hpath
    simp [settings, droppedKeys, overridable, libraryPath_eq_iff]
  have hoverridable : (overridable config).lookup key = (defaults config).lookup key := by
    rw [overridable, List.lookup_cons, beq_false_of_ne hpath]
  simp only [hdropped, hpid, hpath, if_false, false_or, hoverridable]
  have hkeys : key ∈ (settings config "").map Prod.fst ↔
      ¬(settings config executorId).lookup key = none := by
    have hsame : (settings config "").map Prod.fst =
        (settings config executorId).map Prod.fst := rfl
    rw [hsame, List.lookup_eq_none_iff]
    constructor
    · intro hmem hnone
      obtain ⟨p, hp, rfl⟩ := List.mem_map.mp hmem
      exact absurd (hnone p hp) (by simp)
    · intro hsome
      push Not at hsome
      obtain ⟨p, hp, hkey⟩ := hsome
      exact List.mem_map.mpr ⟨p, hp, (by simpa using hkey : key = p.1).symm⟩
  cases hsettings : (settings config executorId).lookup key with
  | some value => simp [hkeys, hsettings]
  | none =>
    simp only [hkeys, hsettings, not_true_eq_false, if_false, Option.none_or]
    cases (defaults config).lookup key <;> simp

/-- An executor gets the same environment from two environments exactly if they agree on all
    variables that its command does not set. -/
theorem sameEnviron_own_iff :
    SameEnviron (ownEnviron config env executorId c) (ownEnviron config env' executorId c) ↔
      ∀ key ∉ c.assignments.map Prod.fst, AgreeOn config env env' key := by
  refine forall_congr' fun key => ?_
  unfold ownEnviron
  rw [lookup_assign_eq_iff, lookup_execEnv_eq_iff, or_iff_not_imp_left]

/-! ## Executors that get their own environment -/

namespace Nursery

variable {config : Config} {initial : Dict String} {n : Nursery}

/-- Every executor was forked with the environment that it would get from the one at start-up. -/
def Isolated (config : Config) (initial : Dict String) (n : Nursery) : Prop :=
  ∀ f ∈ n.forks, ∃ c, n.executors.lookup f.1 = some c ∧
    SameEnviron f.2 (ownEnviron config initial f.1 c)

/-- The executors of a message that are started are so in an environment which agrees with the one
    at start-up on all variables that their commands do not set. -/
def Inherits (config : Config) (initial : Dict String) (n : Nursery) : List TaskInfo → Prop
  | [] => True
  | t :: ts =>
    match n.starts (t.toStart config) with
    | none => True
    | some (executorId, c) => c.startable executorId = true →
      (∀ key ∉ c.assignments.map Prod.fst, AgreeOn config n.environ initial key) ∧
        Inherits config initial (n.start config executorId c) ts

/-- Every executor that was forked is tracked. -/
def Sound (n : Nursery) : Prop := ∀ f ∈ n.forks, f.1 ∈ n.executors

/-- More executors are tracked and forked, and those that were there are as they were. -/
structure Grows (n n' : Nursery) : Prop where
  forks : n.forks ⊆ n'.forks
  executors : ∀ id c, n.executors.lookup id = some c → n'.executors.lookup id = some c

theorem Grows.refl (n : Nursery) : Grows n n := ⟨List.Subset.refl _, fun _ _ h => h⟩

theorem Grows.trans {n1 n2 n3 : Nursery} (h : Grows n1 n2) (h' : Grows n2 n3) : Grows n1 n3 :=
  ⟨List.Subset.trans h.forks h'.forks, fun id c hc => h'.executors id c (h.executors id c hc)⟩

theorem notMem_of_starts {executor : Option (String × CommandInfo)} {executorId : String}
    {c : CommandInfo} (h : n.starts executor = some (executorId, c)) :
    executorId ∉ n.executors := by
  obtain ⟨-, hnot⟩ := Option.filter_eq_some_iff.mp h
  simpa using hnot

theorem mem_forks_start {executorId : String} {c : CommandInfo} :
    f ∈ (n.start config executorId c).forks ↔
      f ∈ n.forks ∨ c.startable executorId = true ∧
        f = (executorId, ownEnviron config n.environ executorId c) := by
  cases hc : c.startable executorId <;> simp [Nursery.start, fork, hc]

theorem grows_start (config : Config) {executorId : String} (hnot : executorId ∉ n.executors)
    (c : CommandInfo) :
    Grows n (n.start config executorId c) := by
  constructor
  · exact fun f hf => mem_forks_start.mpr (.inl hf)
  · intro id c' hc'
    have hne : id ≠ executorId := by
      rintro rfl
      exact hnot (AList.lookup_isSome.mp (by rw [hc']; rfl))
    show (n.executors.insert executorId c).lookup id = some c'
    rw [AList.lookup_insert_ne hne, hc']

theorem Sound.start (h : n.Sound) (config : Config) (executorId : String) (c : CommandInfo) :
    (n.start config executorId c).Sound := by
  intro f hf
  show f.1 ∈ n.executors.insert executorId c
  rw [AList.mem_insert]
  rcases mem_forks_start.mp hf with hf | ⟨-, rfl⟩
  · exact .inr (h f hf)
  · exact .inl rfl

theorem grows_launchAll (config : Config) (n : Nursery) (ts : List TaskInfo) :
    Grows n (n.launchAll config ts) := by
  induction ts generalizing n with
  | nil => exact .refl n
  | cons t ts ih =>
    unfold launchAll
    split
    · exact .refl n
    · rename_i executorId c hstarts
      have hstart := grows_start config (notMem_of_starts hstarts) c
      dsimp only
      split
      · exact hstart.trans (ih _)
      · exact hstart

theorem Sound.launchAll (h : n.Sound) (ts : List TaskInfo) : (n.launchAll config ts).Sound := by
  induction ts generalizing n with
  | nil => exact h
  | cons t ts ih =>
    unfold Nursery.launchAll
    split
    · exact h
    · rename_i executorId c _
      dsimp only
      split
      · exact ih (h.start config executorId c)
      · exact h.start config executorId c

theorem Isolated.of_grows {n' : Nursery} (h : n'.Isolated config initial) (hsound : n.Sound)
    (hgrows : Grows n n') : n.Isolated config initial := by
  intro f hf
  obtain ⟨c', hc', hsame⟩ := h f (hgrows.forks hf)
  obtain ⟨c, hc⟩ := Option.isSome_iff_exists.mp (AList.lookup_isSome.mpr (hsound f hf))
  obtain rfl := Option.some.inj ((hgrows.executors f.1 c hc).symm.trans hc')
  exact ⟨c, hc, hsame⟩

/-- An executor that is forked gets its own environment exactly if it inherits what was there at
    start-up. -/
theorem isolated_start_iff (h : n.Isolated config initial) {executorId : String} {c : CommandInfo}
    (hnot : executorId ∉ n.executors) (hc : c.startable executorId = true) :
    (n.start config executorId c).Isolated config initial ↔
      ∀ key ∉ c.assignments.map Prod.fst, AgreeOn config n.environ initial key := by
  rw [← sameEnviron_own_iff config executorId c]
  have hself : (n.start config executorId c).executors.lookup executorId = some c :=
    AList.lookup_insert _
  constructor
  · intro hiso
    obtain ⟨c', hc', hsame⟩ := hiso _ (mem_forks_start.mpr (.inr ⟨hc, rfl⟩))
    cases hself.symm.trans hc'
    exact hsame
  · intro hsame f hf
    rcases mem_forks_start.mp hf with hf | ⟨-, rfl⟩
    · obtain ⟨c', hc', hsame'⟩ := h f hf
      exact ⟨c', (grows_start config hnot c).executors f.1 c' hc', hsame'⟩
    · exact ⟨c, hself, hsame⟩

theorem isolated_launchAll_iff (hsound : n.Sound) (h : n.Isolated config initial)
    (ts : List TaskInfo) :
    (n.launchAll config ts).Isolated config initial ↔ n.Inherits config initial ts := by
  induction ts generalizing n with
  | nil => simpa [launchAll, Inherits] using h
  | cons t ts ih =>
    cases hstarts : n.starts (t.toStart config) with
    | none => simpa [launchAll, Inherits, hstarts] using h
    | some executor =>
      obtain ⟨executorId, c⟩ := executor
      have hnot := notMem_of_starts hstarts
      simp only [launchAll, Inherits, hstarts]
      cases hc : c.startable executorId with
      | false =>
        -- the executor is tracked and not forked
        simp only [Bool.false_eq_true, if_false, false_implies, iff_true]
        intro f hf
        rcases mem_forks_start.mp hf with hf | ⟨hstart, -⟩
        · obtain ⟨c', hc', hsame⟩ := h f hf
          exact ⟨c', (grows_start config hnot c).executors f.1 c' hc', hsame⟩
        · rw [hc] at hstart
          cases hstart
      | true =>
        simp only [if_true, true_implies]
        have hiff := isolated_start_iff h hnot hc
        have hsound' := hsound.start config executorId c
        constructor
        · intro hiso
          have hmid := hiso.of_grows hsound' (grows_launchAll config _ ts)
          exact ⟨hiff.mp hmid, (ih hsound' hmid).mp hiso⟩
        · rintro ⟨hagree, hrest⟩
          exact (ih hsound' (hiff.mpr hagree)).mpr hrest

end Nursery

/-! ## Runs -/

/-- Every executor was forked with the environment that it would get from the one at start-up. -/
def ExecutorHandler.Isolated (config : Config) (initial : Dict String) (s : ExecutorHandler) :
    Prop :=
  ∀ executorId value environ, Effect.fork executorId value environ ∈ s.effects →
    ∃ e, s.executorTracker.lookup executorId = some e ∧
      SameEnviron environ (ownEnviron config initial executorId e.command)

theorem mem_forks_nursery :
    f ∈ s.nursery.forks ↔ ∃ value, Effect.fork f.1 value f.2 ∈ s.effects := by
  simp only [ExecutorHandler.nursery, List.mem_filterMap]
  constructor
  · rintro ⟨e, he, hforked⟩
    cases e with
    | fetch => cases hforked
    | fork executorId value environ =>
      cases hforked
      exact ⟨value, he⟩
  · rintro ⟨value, hmem⟩
    exact ⟨_, hmem, rfl⟩

theorem isolated_nursery_iff {config : Config} {initial : Dict String} :
    s.nursery.Isolated config initial ↔ s.Isolated config initial := by
  constructor
  · intro h executorId value environ hmem
    obtain ⟨c, hc, hsame⟩ := h (executorId, environ) (mem_forks_nursery.mpr ⟨value, hmem⟩)
    obtain ⟨e, he, rfl⟩ := Option.map_eq_some_iff.mp ((AList.lookup_mapVal _ _ _).symm.trans hc)
    exact ⟨e, he, hsame⟩
  · intro h f hf
    obtain ⟨value, hmem⟩ := mem_forks_nursery.mp hf
    obtain ⟨e, he, hsame⟩ := h f.1 value f.2 hmem
    refine ⟨e.command, ?_, hsame⟩
    show (s.executorTracker.mapVal (·.command)).lookup f.1 = _
    rw [AList.lookup_mapVal, he, Option.map_some]

namespace Watch

variable {config : Config} {initial : Dict String}

theorem nursery_launchTasks (config : Config) (message : Option (List TaskInfo))
    (s : ExecutorHandler) :
    ((launchTasks config message).after s).nursery =
      s.nursery.launchAll config (message.getD []) := by
  cases message with
  | none => rfl
  | some ts => exact launchLoop_nursery config ts s

/-- The executors that the message starts inherit what the runner had at start-up, as far as their
    commands do not set it. -/
def Inherits (config : Config) (initial : Dict String) (w : Watch)
    (message : Option (List TaskInfo)) : Prop :=
  w.handler.shutdown = false → w.handler.nursery.Inherits config initial (message.getD [])

theorem sound_step {w : Watch} (h : w.handler.nursery.Sound) (message : Option (List TaskInfo)) :
    (w.step config message).handler.nursery.Sound := by
  unfold Watch.step
  split
  · exact h
  · rw [nursery_launchTasks]
    exact h.launchAll _

theorem isolated_step_iff {w : Watch} (hsound : w.handler.nursery.Sound)
    (h : w.handler.Isolated config initial) (message : Option (List TaskInfo)) :
    (w.step config message).handler.Isolated config initial ↔
      w.Inherits config initial message := by
  unfold Watch.step Inherits
  cases hshutdown : w.handler.shutdown with
  | true => simpa using h
  | false =>
    simp only [Bool.false_eq_true, if_false, true_implies]
    rw [← isolated_nursery_iff, nursery_launchTasks]
    exact Nursery.isolated_launchAll_iff hsound (isolated_nursery_iff.mpr h) _

/-- After every message all executors started so far were given the environment that they would
    have got as the first executor of the runner, exactly if each of them was started in an
    environment that agrees with the one at start-up on all that it inherits. -/
theorem environments_isolated_iff (config : Config) (initial : Dict String)
    (messages : List (Option (List TaskInfo))) :
    Run.Meets (step config) (fun w m => (w.step config m).handler.Isolated config initial)
        (start initial) messages ↔
      Run.Meets (step config) (Inherits config initial) (start initial) messages := by
  have hinv : ∀ (w : Watch) m, w.handler.nursery.Sound → (step config w m).handler.nursery.Sound :=
    fun _ m h => sound_step h m
  have hstep : ∀ (w : Watch) m, w.handler.nursery.Sound → w.handler.Isolated config initial →
      ((step config w m).handler.Isolated config initial ↔ Inherits config initial w m) :=
    fun _ m hsound h => isolated_step_iff hsound h m
  refine Run.meets_iff hinv hstep ?_ ?_
  · exact nofun
  · exact nofun

/-- A message for an executor whose command sets a variable. -/
def secretMessage (value : String) : Option (List TaskInfo) :=
  let environment : Environment := ⟨some [{ name := some "SECRET", value := some value }]⟩
  let command : CommandInfo := { value := some "e", environment := some environment }
  some [{ taskId := "a", executor := some { executorId := "e", command := some command } }]

/-- The environments of the executors that a run has forked. -/
def environments (messages : List (Option (List TaskInfo))) : List (String × Dict String) :=
  (messages.foldl (step Sample.config) (start ∅)).handler.nursery.forks

/-- Two runs that differ only in a variable that the first executor requests: the second executor
    is given the one or the other value of it, although its own command has no variables. -/
theorem environment_leaked : (environments [secretMessage "x", some [Sample.task "b" "f"]]).map
        (fun f => (f.1, f.2.lookup "SECRET")) = [("e", some "x"), ("f", some "x")] ∧
      (environments [secretMessage "y", some [Sample.task "b" "f"]]).map
        (fun f => (f.1, f.2.lookup "SECRET")) = [("e", some "y"), ("f", some "y")] ∧
      (ownEnviron Sample.config ∅ "f" { value := some "f" }).lookup "SECRET" = none := by
  refine ⟨?_, ?_, ?_⟩ <;> decide +kernel

end Watch

end Urb.Runner
