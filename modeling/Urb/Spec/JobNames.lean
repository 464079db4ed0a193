import Urb.Native.K8SAdapter

/-!
# Names of Kubernetes jobs

`__append_job_name` cuts a part of a name to what is left of the 63 characters. It is called
twice, for the framework and for the task, and each call reserves one dash. A framework part that
is cut fills its budget exactly, which leaves a budget of -1 for the task part: `append[:-1]` then
drops one character of a task name of any length.
-/

namespace Urb.K8SAdapter

namespace Submission

variable (call : Submission)

/-! ## The parts of a name -/

/-- What `__append_job_name` reserves for the number of a job. -/
def numberRoom : Nat :=
  if call.concurrentTasks > 1 then (decimal call.concurrentTasks).length + 1 else 0

/-- What the number of a job takes. -/
def numberSize (i : Nat) : Nat :=
  if call.concurrentTasks > 1 then (decimal i).length + 1 else 0

/-- The length of the framework part before it is cut. -/
def frameworkSize : Nat := (scrub (call.frameworkName.map call.lower)).length

/-- The name of a job up to the framework part. -/
def baseName : List Char :=
  call.appendJobName templateName (call.frameworkName.map call.lower)

/-- The text of the task part. -/
def taskPart (i : Nat) : Option (List Char) := (call.taskAt i).bind JobTask.part

/-- The name of a job up to the task part. -/
def bareName (i : Nat) : List Char :=
  match call.taskPart i with
  | some part => call.appendJobName call.baseName part
  | none => call.baseName

/-- The name of a job without its suffix. -/
def numberedName (i : Nat) : List Char :=
  if call.concurrentTasks > 1 then call.bareName i ++ '-' :: decimal i else call.bareName i

def jobName (i : Nat) : List Char := call.numberedName i ++ '-' :: call.suffix

/-- The requests for the container of a job. -/
def request (i : Nat) : Except PyError (Option Requests) :=
  match call.taskAt i with
  | some task => call.requests task.resources
  | none => .ok none

theorem fromTasks_eq (i : Nat) : call.fromTasks i call.baseName =
      (call.request i).map fun req => (call.numberedName i, req) := by
  unfold fromTasks request numberedName bareName taskPart
  cases call.taskAt i with
  | none => rfl
  | some task =>
    simp only [Option.bind_some]
    cases call.requests task.resources <;> rfl

theorem numberSize_le_numberRoom {i : Nat} (h : i < call.concurrentTasks) :
    call.numberSize i ≤ call.numberRoom := by
  unfold numberSize numberRoom
  split
  · have hpos : 0 < (decimal call.concurrentTasks).length := by
      simp [decimal, List.length_pos_iff]
    have hlt : call.concurrentTasks < 10 ^ (decimal call.concurrentTasks).length :=
      (Nat.length_toDigits_le_iff (by omega) hpos).mp le_rfl
    have hle : (decimal i).length ≤ (decimal call.concurrentTasks).length :=
      (Nat.length_toDigits_le_iff (by omega) hpos).mpr (h.trans hlt)
    omega
  · omega

theorem numberRoom_le (h : call.concurrentTasks < 2 ^ 63) : call.numberRoom ≤ 20 := by
  unfold numberRoom
  split
  · have : (decimal call.concurrentTasks).length ≤ 19 :=
      (Nat.length_toDigits_le_iff (by omega) (by omega)).mpr (h.trans (by decide))
    omega
  · omega

/-! ## Lengths -/

theorem appendJobName_eq (jobName append : List Char) : call.appendJobName jobName append =
      let left : Int := 45 - jobName.length - call.numberRoom
      if ((scrub append).length : Int) > left then
        jobName ++ '-' :: PyString.sliceTo ((scrub append).map call.lower) left
      else jobName ++ '-' :: (scrub append).map call.lower := by
  have hleft : (if call.concurrentTasks > 1 then
      (jobNameMaxSize - jobNameTemplateSize - jobName.length : Int) -
        ((decimal call.concurrentTasks).length + 1)
      else jobNameMaxSize - jobNameTemplateSize - jobName.length) =
      45 - jobName.length - call.numberRoom := by
    have hmax : jobNameMaxSize = 63 := rfl
    have htemplate : jobNameTemplateSize = 18 := rfl
    rw [numberRoom, hmax, htemplate]
    split
    · omega
    · omega
  simp only [appendJobName, hleft, List.length_map]

/-- The length of a name with one part more. -/
theorem length_appendJobName {jobName : List Char} (append : List Char)
    (h : jobName.length + call.numberRoom ≤ 45) :
    (call.appendJobName jobName append).length =
      jobName.length + 1 + min (scrub append).length (45 - jobName.length - call.numberRoom) := by
  rw [appendJobName_eq]
  dsimp only
  split
  · have hslice := PyString.length_sliceTo_of_nonneg ((scrub append).map call.lower)
      (show (0 : Int) ≤ 45 - jobName.length - call.numberRoom by omega)
    rw [List.length_map] at hslice
    simp only [List.length_append, List.length_cons]
    omega
  · simp only [List.length_append, List.length_cons, List.length_map]
    omega

theorem length_appendJobName_overdrawn {jobName : List Char} (append : List Char)
    (h : jobName.length + call.numberRoom = 46) :
    (call.appendJobName jobName append).length =
      jobName.length + 1 + ((scrub append).length - 1) := by
  have hleft : (45 - jobName.length - call.numberRoom : Int) = -1 := by omega
  rw [appendJobName_eq]
  dsimp only
  rw [hleft, if_pos (by omega), List.length_append, List.length_cons,
    PyString.length_sliceTo_neg_one, List.length_map]
  omega

theorem length_baseName (h : call.concurrentTasks < 2 ^ 63) :
    call.baseName.length = 9 + min call.frameworkSize (37 - call.numberRoom) := by
  have hroom := call.numberRoom_le h
  have htemplate : templateName.length = 8 := rfl
  rw [baseName, length_appendJobName call _ (by omega), htemplate, frameworkSize]

theorem length_jobName (i : Nat) :
    (call.jobName i).length = (call.bareName i).length + call.numberSize i + 9 := by
  have hsuffix : call.suffix.length = 8 := call.suffix_length
  unfold jobName numberedName numberSize
  split
  · simp only [List.length_append, List.length_cons, hsuffix]
  · simp only [List.length_append, List.length_cons, hsuffix]

/-- The framework part is not cut, or the task part is short. -/
def NameFits (i : Nat) : Prop :=
  ∀ part, call.taskPart i = some part →
    call.frameworkSize + call.numberRoom < 37 ∨
      (scrub part).length + call.numberSize i ≤ 8 + call.numberRoom

theorem length_jobName_le_iff {i : Nat} (hn : call.concurrentTasks < 2 ^ 63)
    (hi : i < call.concurrentTasks) :
    (call.jobName i).length ≤ jobNameMaxSize ↔ call.NameFits i := by
  have hroom := call.numberRoom_le hn
  have hsize := call.numberSize_le_numberRoom hi
  have hbase := call.length_baseName hn
  rw [length_jobName, bareName, NameFits, jobNameMaxSize]
  cases call.taskPart i with
  | none =>
    simp only [reduceCtorEq, false_implies, implies_true, iff_true]
    omega
  | some part =>
    simp only [Option.some.injEq, forall_eq']
    by_cases hshort : call.frameworkSize + call.numberRoom < 37
    · -- the framework part leaves a budget for the task part
      have := call.length_appendJobName part
        (show call.baseName.length + call.numberRoom ≤ 45 by omega)
      omega
    · have := call.length_appendJobName_overdrawn part
        (show call.baseName.length + call.numberRoom = 46 by omega)
      omega

end Submission

/-! ## The loop over the jobs -/

/-- The cluster when the body of a job has been passed to Kubernetes. -/
def Cluster.pass (call : Submission) (i : Nat) (reqKey : Option Requests) (s : Cluster) : Cluster :=
  let resources := if reqKey.isSome then reqKey else s.resources
  { s with
    resources
    bodies := s.bodies ++ [{ name := call.jobName i, resources }] }

/-- The cluster with one job more. -/
def Cluster.addJob (i : Nat) (s : Cluster) : Cluster := { s with jobs := s.jobs ++ [i] }

variable {call : Submission} {api : Api}

theorem createJobs_succ (i left : Nat) (s : Cluster) :
    createJobs call api call.baseName i (left + 1) s =
      if call.maxTasks ≤ i then .ok [] s
      else
        match call.request i with
        | .error e => .error e s
        | .ok reqKey =>
          match api.create i with
          | .refused => .error .adapter (s.pass call i reqKey)
          | .unanswered => .error .adapter ((s.pass call i reqKey).addJob i)
          | .created =>
            ((i :: ·) <$> createJobs call api call.baseName (i + 1) left)
              ((s.pass call i reqKey).addJob i) := by
  rw [createJobs]
  split
  · rfl
  · rw [Submission.fromTasks_eq]
    cases call.request i with
    | error e => rfl
    | ok reqKey =>
      simp only [createNamespacedJob]
      cases api.create i with
      | refused => cases reqKey <;> rfl
      | unanswered => cases reqKey <;> rfl
      | created =>
        rw [← bind_pure_comp]
        cases reqKey <;> rfl

/-- The job is reached by the loop if no call to Kubernetes raises. -/
structure Submission.Reached (call : Submission) (i j : Nat) : Prop where
  lower : i ≤ j
  maxTasks : j < call.maxTasks
  requests : ∀ k, i ≤ k → k ≤ j → ∃ reqKey, call.request k = .ok reqKey

theorem Submission.Reached.of_succ {i j : Nat} (h : call.Reached (i + 1) j)
    (hi : ∃ reqKey, call.request i = .ok reqKey) : call.Reached i j := by
  refine ⟨by have := h.lower; omega, h.maxTasks, fun k hik hkj => ?_⟩
  by_cases hk : k = i
  · rwa [hk]
  · exact h.requests k (by omega) hkj

theorem name_of_mem_bodies (left i : Nat) (s : Cluster) :
    ∀ body ∈ ((createJobs call api call.baseName i left).after s).bodies, body ∈ s.bodies ∨
      ∃ j, call.Reached i j ∧ j < i + left ∧ body.name = call.jobName j := by
  induction left generalizing i s with
  | zero => exact fun body hbody => Or.inl hbody
  | succ left ih =>
    intro body hbody
    rw [EStateM.after_eq_state, createJobs_succ] at hbody
    split at hbody
    · exact Or.inl hbody
    · rename_i hmax
      cases hreq : call.request i with
      | error e =>
        rw [hreq] at hbody
        exact Or.inl hbody
      | ok reqKey =>
        rw [hreq] at hbody
        have hreached : call.Reached i i := by
          refine ⟨le_rfl, by omega, fun k hik hki => ?_⟩
          obtain rfl : k = i := by omega
          exact ⟨reqKey, hreq⟩
        have hpass : ∀ b ∈ (s.pass call i reqKey).bodies, b ∈ s.bodies ∨
            ∃ j, call.Reached i j ∧ j < i + (left + 1) ∧ b.name = call.jobName j := by
          intro b hb
          obtain hb | hb := List.mem_append.mp hb
          · exact Or.inl hb
          · rw [List.mem_singleton.mp hb]
            exact Or.inr ⟨i, hreached, by omega, rfl⟩
        cases hcreate : api.create i with
        | refused =>
          rw [hcreate] at hbody
          exact hpass body hbody
        | unanswered =>
          rw [hcreate] at hbody
          exact hpass body hbody
        | created =>
          rw [hcreate] at hbody
          -- the rest of the loop starts from the cluster with the new job
          dsimp only at hbody
          rw [← EStateM.after_eq_state, EStateM.after_map] at hbody
          obtain hmem | ⟨j, hj, hjlt, hname⟩ := ih (i + 1) _ body hbody
          · exact hpass body hmem
          · exact Or.inr ⟨j, hj.of_succ ⟨reqKey, hreq⟩, by omega, hname⟩

theorem mem_bodies_of_created (hcreate : ∀ i, api.create i = .created) (left i : Nat)
    (s : Cluster) :
    s.bodies ⊆ ((createJobs call api call.baseName i left).after s).bodies ∧
      ∀ j, call.Reached i j → j < i + left →
        ∃ body ∈ ((createJobs call api call.baseName i left).after s).bodies,
          body.name = call.jobName j := by
  induction left generalizing i s with
  | zero =>
    refine ⟨fun _ h => h, fun j hj hlt => ?_⟩
    have := hj.lower
    omega
  | succ left ih =>
    rw [EStateM.after_eq_state, createJobs_succ]
    split
    · rename_i hmax
      refine ⟨fun _ h => h, fun j hj _ => ?_⟩
      have := hj.lower
      have := hj.maxTasks
      omega
    · cases hreq : call.request i with
      | error e =>
        refine ⟨fun _ h => h, fun j hj _ => ?_⟩
        obtain ⟨reqKey, hok⟩ := hj.requests i le_rfl hj.lower
        rw [hreq] at hok
        cases hok
      | ok reqKey =>
        obtain ⟨hkeep, hall⟩ := ih (i + 1) ((s.pass call i reqKey).addJob i)
        simp only [hcreate, ← EStateM.after_eq_state, EStateM.after_map]
        constructor
        · exact fun b hb => hkeep (List.mem_append_left _ hb)
        · intro j hj hlt
          by_cases hji : j = i
          · subst hji
            exact ⟨_, hkeep (List.mem_append_right _ (List.mem_singleton_self _)), rfl⟩
          · have hlow := hj.lower
            exact hall j ⟨by omega, hj.maxTasks, fun k hk => hj.requests k (by omega)⟩ (by omega)

/-- The two look-ups of the pods of the jobs. -/
def lookUp (api : Api) (jobs : List Nat) : Except PyError (List JobIdTuple) := do
  let (jobIds, retry) ← getJobIds api 0 jobs
  if retry = [] then pure jobIds
  else
    let (jids, _) ← getJobIds api 1 retry
    pure (jobIds ++ jids)

theorem submitJobs_apply (s : Cluster) : submitJobs call api s =
      if 2 ^ 63 ≤ call.concurrentTasks then .error .adapter s
      else
        match createJobs call api call.baseName 0 call.concurrentTasks s with
        | .error e s' => .error e s'
        | .ok labelSelectors s' =>
          match lookUp api labelSelectors with
          | .error e => .error e s'
          | .ok jobIds => .ok jobIds s' := by
  rw [submitJobs]
  split
  · rfl
  · rw [show call.appendJobName templateName (call.frameworkName.map call.lower) = call.baseName
      from rfl, EStateM.bind_apply]
    cases createJobs call api call.baseName 0 call.concurrentTasks s with
    | error e s' => rfl
    | ok labelSelectors s' =>
      dsimp only
      rw [lookUp]
      cases getJobIds api 0 labelSelectors with
      | error e => rfl
      | ok found =>
        obtain ⟨jobIds, retry⟩ := found
        cases retry with
        | nil => rfl
        | cons job jobs =>
          -- both sides look once more for the pods that were missing
          have hsecond : ∀ again : Except PyError (List JobIdTuple × List Nat),
              (MonadExcept.ofExcept again >>=
                fun found => pure (jobIds ++ found.1) : ClusterM _) s' =
                match (again >>= fun found => pure (jobIds ++ found.1) : Except PyError _) with
                | .error e => .error e s'
                | .ok jobIds => .ok jobIds s' := by
            intro again
            cases again <;> rfl
          exact hsecond _

theorem submitJobs_after (s : Cluster) : (submitJobs call api).after s =
      if 2 ^ 63 ≤ call.concurrentTasks then s
      else (createJobs call api call.baseName 0 call.concurrentTasks).after s := by
  rw [EStateM.after_eq_state, submitJobs_apply, EStateM.after_eq_state]
  split
  · rfl
  · cases createJobs call api call.baseName 0 call.concurrentTasks s with
    | error e s' => rfl
    | ok labelSelectors s' =>
      dsimp only
      cases lookUp api labelSelectors <;> rfl

/-- Kubernetes creates all jobs, and lists no pods. -/
def Api.quiet : Api where
  create _ := .created
  listNamespacedPod _ _ := .ok []
  distinct h _ hpod := by
    cases h
    cases hpod

/-- All names that `submit_jobs` passes to Kubernetes have at most 63 characters, whatever
    Kubernetes answers, exactly if the task parts of the jobs that are reached are short where
    the framework part is cut. -/
theorem job_names_fit_iff (call : Submission) :
    (∀ api, ∀ body ∈ ((submitJobs call api).after {}).bodies, body.name.length ≤ jobNameMaxSize) ↔
      (call.concurrentTasks < 2 ^ 63 → ∀ i < call.concurrentTasks, call.Reached 0 i →
        call.NameFits i) := by
  by_cases hn : 2 ^ 63 ≤ call.concurrentTasks
  · have hbodies : ∀ api, ((submitJobs call api).after {}).bodies = [] := fun api => by
      rw [submitJobs_after, if_pos hn]
    exact ⟨fun _ hlt => by omega, fun _ api body hbody => by simp [hbodies api] at hbody⟩
  · simp only [submitJobs_after, hn, if_false]
    have hn : call.concurrentTasks < 2 ^ 63 := by omega
    constructor
    · intro hfit _ i hi hreached
      have hcreated : ∀ i, Api.quiet.create i = .created := fun _ => rfl
      obtain ⟨body, hbody, hname⟩ :=
        (mem_bodies_of_created hcreated call.concurrentTasks 0 {}).2 i hreached (by omega)
      rw [← call.length_jobName_le_iff hn hi, ← hname]
      exact hfit Api.quiet body hbody
    · intro hfits api body hbody
      obtain hbody | ⟨i, hreached, hi, hname⟩ :=
        name_of_mem_bodies call.concurrentTasks 0 {} body hbody
      · cases hbody
      · rw [Nat.zero_add] at hi
        rw [hname, call.length_jobName_le_iff hn hi]
        exact hfits hn i hi hreached

/-- One job for a framework and a task with long names. -/
def Submission.longNames : Submission where
  frameworkName := List.replicate 37 'f'
  maxTasks := 1
  concurrentTasks := 1
  tasks := some [{ name := some (List.replicate 100 't') }]
  suffix := List.replicate 8 '0'
  suffix_length := rfl

/-- The name of the job has 155 characters. -/
theorem job_name_too_long : ¬∀ body ∈ ((submitJobs Submission.longNames Api.quiet).after {}).bodies,
      body.name.length ≤ jobNameMaxSize := by
  have hlengths : ((submitJobs Submission.longNames Api.quiet).after {}).bodies.map
      (·.name.length) = [155] := by decide +kernel
  intro hfit
  have hmem : 155 ∈ ((submitJobs Submission.longNames Api.quiet).after {}).bodies.map
      (·.name.length) := by simp [hlengths]
  obtain ⟨body, hbody, hlength⟩ := List.mem_map.mp hmem
  have := hfit body hbody
  rw [hlength] at this
  exact absurd this (by decide)

end Urb.K8SAdapter
