import Urb.Spec.JobNames

/-!
# Jobs that nobody knows of

The service knows a Kubernetes job by the name of its pod. `submit_jobs` creates all jobs before
it looks for the first pod, and it gives no job back: when a later call to Kubernetes raises,
`submit_executor_runner` returns an empty list to `scale_up`, and the jobs that were created run
on. So does a job whose pod is still missing at the second look-up, or that has several.
-/

namespace Urb.K8SAdapter

variable {call : Submission} {api : Api}

variable {round job : Nat} {jobs : List Nat} {jobIds : List JobIdTuple}

/-! ## Look-ups -/

/-- The pod of a job that a look-up finds: the only one, and with a name. -/
def Api.found (api : Api) (round job : Nat) : Option String :=
  match api.listNamespacedPod round job with
  | .ok [name] => if name = "" then none else some name
  | _ => none

/-- The call that lists the pods of the job returns. -/
def Api.Answers (api : Api) (round job : Nat) : Prop :=
  ∃ pods, api.listNamespacedPod round job = .ok pods

/-- The job id of a pod. -/
def jobIdOf (pod : String) : JobIdTuple := (pod, none, none)

theorem Api.found_mem {pod : String} (h : api.found round job = some pod) :
    ∃ pods, api.listNamespacedPod round job = .ok pods ∧ pod ∈ pods := by
  unfold Api.found at h
  split at h
  · rename_i hlist
    split at h
    · cases h
    · cases h
      exact ⟨[pod], hlist, by simp⟩
  · cases h

theorem retrievePodName_eq_ok {name : Option String}
    (h : retrievePodName api round job = .ok name) :
    api.Answers round job ∧ api.found round job = if name.getD "" = "" then none else name := by
  unfold retrievePodName at h
  unfold Api.Answers Api.found
  cases hlist : api.listNamespacedPod round job with
  | error e =>
    rw [hlist] at h
    cases h
  | ok pods =>
    rw [hlist] at h
    refine ⟨⟨pods, rfl⟩, ?_⟩
    match pods, h with
    | [], h => cases h; rfl
    | [pod], h => cases h; rfl
    | _ :: _ :: _, h => cases h; rfl

theorem getJobIds_eq (round : Nat) (jobs : List Nat) (h : ∀ job ∈ jobs, api.Answers round job) :
    getJobIds api round jobs =
      .ok ((jobs.filterMap (api.found round)).map jobIdOf,
        jobs.filter fun job => api.found round job = none) := by
  induction jobs with
  | nil => rfl
  | cons job jobs ih =>
    obtain ⟨pods, hpods⟩ := h job (by simp)
    have hrest := ih fun job' hjob' => h job' (by simp [hjob'])
    have hname : ∃ name, retrievePodName api round job = .ok name := by
      unfold retrievePodName
      rw [hpods]
      match pods with
      | [] => exact ⟨none, rfl⟩
      | [pod] => exact ⟨some pod, rfl⟩
      | _ :: _ :: _ => exact ⟨none, rfl⟩
    obtain ⟨name, hname⟩ := hname
    have hfound := (retrievePodName_eq_ok hname).2
    rw [getJobIds, hname, hrest]
    by_cases hempty : name.getD "" = ""
    · rw [if_pos hempty] at hfound
      simp [hfound, hempty, bind, Except.bind, pure, Except.pure]
    · rw [if_neg hempty] at hfound
      cases name with
      | none => simp at hempty
      | some pod =>
        simp only [Option.getD_some] at hempty
        simp [hfound, hempty, bind, Except.bind, pure, Except.pure, jobIdOf]

theorem answers_of_getJobIds {result : List JobIdTuple × List Nat}
    (h : getJobIds api round jobs = .ok result) : ∀ job ∈ jobs, api.Answers round job := by
  induction jobs generalizing result with
  | nil => simp
  | cons job jobs ih =>
    rw [getJobIds] at h
    cases hname : retrievePodName api round job with
    | error e =>
      rw [hname] at h
      cases h
    | ok name =>
      rw [hname] at h
      cases hrest : getJobIds api round jobs with
      | error e =>
        rw [hrest] at h
        cases h
      | ok rest =>
        intro job' hjob'
        obtain rfl | hjob' := List.mem_cons.mp hjob'
        · exact (retrievePodName_eq_ok hname).1
        · exact ih hrest job' hjob'

theorem lookUp_eq (h0 : ∀ job ∈ jobs, api.Answers 0 job)
    (h1 : ∀ job ∈ jobs, api.found 0 job = none → api.Answers 1 job) :
    lookUp api jobs = .ok ((jobs.filterMap (api.found 0) ++
      (jobs.filter fun job => api.found 0 job = none).filterMap (api.found 1)).map jobIdOf) := by
  rw [lookUp, getJobIds_eq 0 jobs h0]
  by_cases hretry : (jobs.filter fun job => api.found 0 job = none) = []
  · simp [hretry, bind, Except.bind, pure, Except.pure]
  · have hanswers : ∀ job ∈ jobs.filter fun job => api.found 0 job = none, api.Answers 1 job := by
      intro job hjob
      obtain ⟨hjob, hnone⟩ := List.mem_filter.mp hjob
      exact h1 job hjob (by simpa using hnone)
    have hagain := getJobIds_eq 1 _ hanswers
    simp [hretry, hagain, bind, Except.bind, pure, Except.pure]

theorem answers_of_lookUp (h : lookUp api jobs = .ok jobIds) : (∀ job ∈ jobs, api.Answers 0 job) ∧
      ∀ job ∈ jobs, api.found 0 job = none → api.Answers 1 job := by
  rw [lookUp] at h
  cases hfirst : getJobIds api 0 jobs with
  | error e =>
    rw [hfirst] at h
    cases h
  | ok result =>
    have h0 := answers_of_getJobIds hfirst
    refine ⟨h0, fun job hjob hnone => ?_⟩
    rw [getJobIds_eq 0 jobs h0] at h
    have hmem : job ∈ jobs.filter fun job => api.found 0 job = none := by simp [hjob, hnone]
    have hretry : (jobs.filter fun job => api.found 0 job = none) ≠ [] := List.ne_nil_of_mem hmem
    cases hagain : getJobIds api 1 (jobs.filter fun job => api.found 0 job = none) with
    | error e => simp [hretry, hagain, bind, Except.bind] at h
    | ok again => exact answers_of_getJobIds hagain job hmem

/-! ## Known jobs -/

/-- The id of a pod of the job is in the list. -/
def Represented (api : Api) (jobIds : List JobIdTuple) (job : Nat) : Prop :=
  ∃ round pods pod, api.listNamespacedPod round job = .ok pods ∧ pod ∈ pods ∧ jobIdOf pod ∈ jobIds

/-- The pod of the job is found in time, and no look-up of it raises. -/
structure Api.Locates (api : Api) (job : Nat) : Prop where
  answers : api.Answers 0 job
  found : (api.found 0 job).isSome ∨ (api.found 1 job).isSome

theorem not_represented_nil (job : Nat) : ¬Represented api [] job := by
  rintro ⟨round, pods, pod, -, -, hmem⟩
  cases hmem

theorem Api.found_represented {pod : String} {jobIds : List JobIdTuple}
    (h : api.found round job = some pod) (hmem : jobIdOf pod ∈ jobIds) :
    Represented api jobIds job := by
  obtain ⟨pods, hpods, hpod⟩ := api.found_mem h
  exact ⟨round, pods, pod, hpods, hpod, hmem⟩

theorem represented_of_locates (h : ∀ job ∈ jobs, api.Locates job) :
    ∃ jobIds, lookUp api jobs = .ok jobIds ∧ ∀ job ∈ jobs, Represented api jobIds job := by
  have h1 : ∀ job ∈ jobs, api.found 0 job = none → api.Answers 1 job := by
    intro job hjob hnone
    have hfound := (h job hjob).found
    rw [hnone] at hfound
    obtain ⟨pod, hpod⟩ := Option.isSome_iff_exists.mp (hfound.resolve_left (by simp))
    obtain ⟨pods, hpods, -⟩ := api.found_mem hpod
    exact ⟨pods, hpods⟩
  refine ⟨_, lookUp_eq (fun job hjob => (h job hjob).answers) h1, fun job hjob => ?_⟩
  cases hfirst : api.found 0 job with
  | some pod =>
    refine api.found_represented hfirst (List.mem_map_of_mem (List.mem_append_left _ ?_))
    exact List.mem_filterMap.mpr ⟨job, hjob, hfirst⟩
  | none =>
    have hfound := (h job hjob).found
    rw [hfirst] at hfound
    obtain ⟨pod, hpod⟩ := Option.isSome_iff_exists.mp (hfound.resolve_left (by simp))
    refine api.found_represented hpod (List.mem_map_of_mem (List.mem_append_right _ ?_))
    exact List.mem_filterMap.mpr ⟨job, by simp [hjob, hfirst], hpod⟩

theorem locates_of_represented (h : lookUp api jobs = .ok jobIds) {job : Nat} (hjob : job ∈ jobs)
    (hrep : Represented api jobIds job) : api.Locates job := by
  obtain ⟨h0, h1⟩ := answers_of_lookUp h
  rw [lookUp_eq h0 h1] at h
  cases h
  obtain ⟨round, pods, pod, hpods, hpod, hmem⟩ := hrep
  refine ⟨h0 job hjob, ?_⟩
  obtain ⟨pod', hpod', hid⟩ := List.mem_map.mp hmem
  obtain rfl : pod' = pod := congrArg Prod.fst hid
  have hown : ∀ round' job', api.found round' job' = some pod' → job' = job := by
    intro round' job' hfound
    obtain ⟨pods', hpods', hpod'⟩ := api.found_mem hfound
    exact api.distinct hpods' hpods hpod' hpod
  obtain hfirst | hsecond := List.mem_append.mp hpod'
  · obtain ⟨job', -, hfound⟩ := List.mem_filterMap.mp hfirst
    rw [hown 0 job' hfound] at hfound
    simp [hfound]
  · obtain ⟨job', -, hfound⟩ := List.mem_filterMap.mp hsecond
    rw [hown 1 job' hfound] at hfound
    simp [hfound]

/-! ## Created jobs -/

/-- The iteration of the loop ends normally. -/
structure Succeeds (call : Submission) (api : Api) (i : Nat) : Prop where
  request : ∃ reqKey, call.request i = .ok reqKey
  create : api.create i = .created

/-- The iteration of the loop creates a job. -/
structure Creates (call : Submission) (api : Api) (i : Nat) : Prop where
  request : ∃ reqKey, call.request i = .ok reqKey
  create : api.create i ≠ .refused

theorem Succeeds.creates {i : Nat} (h : Succeeds call api i) : Creates call api i :=
  ⟨h.request, by simp [h.create]⟩

theorem createJobs_zero (i : Nat) (s : Cluster) :
    createJobs call api call.baseName i 0 s = .ok [] s := rfl

/-- The loop creates all jobs, or it raises. When it raises, there are new jobs unless its first
    iteration created none. -/
theorem createJobs_spec (left i : Nat) (s : Cluster) :
    EStateM.Triple (· = s) (createJobs call api call.baseName i left)
      (fun labelSelectors s' => s'.jobs = s.jobs ++ labelSelectors ∧
        (∀ j, j ∈ labelSelectors ↔ i ≤ j ∧ j < i + left ∧ j < call.maxTasks) ∧
        ∀ j ∈ labelSelectors, Succeeds call api j)
      (fun s' => (∃ j, i ≤ j ∧ j < i + left ∧ j < call.maxTasks ∧ ¬Succeeds call api j) ∧
        (∃ jobs, s'.jobs = s.jobs ++ jobs ∧ (jobs = [] ↔ ¬Creates call api i))) := by
  induction left generalizing i s with
  | zero =>
    rintro s' rfl
    rw [createJobs_zero]
    refine ⟨by simp, fun j => ?_, by simp⟩
    simp only [List.not_mem_nil, false_iff]
    omega
  | succ left ih =>
    rintro s' rfl
    rw [createJobs_succ]
    by_cases hmax : call.maxTasks ≤ i
    · rw [if_pos hmax]
      refine ⟨by simp, fun j => ?_, by simp⟩
      simp only [List.not_mem_nil, false_iff]
      omega
    · rw [if_neg hmax]
      cases hreq : call.request i with
      | error e =>
        have hraises : ∀ reqKey, call.request i ≠ .ok reqKey := by simp [hreq]
        refine ⟨⟨i, by omega, by omega, by omega, fun h => ?_⟩, [], by simp, ?_⟩
        · obtain ⟨reqKey, hok⟩ := h.request
          exact hraises reqKey hok
        · simp only [true_iff]
          intro h
          obtain ⟨reqKey, hok⟩ := h.request
          exact hraises reqKey hok
      | ok reqKey =>
        dsimp only
        cases hcreate : api.create i with
        | refused =>
          refine ⟨⟨i, by omega, by omega, by omega, fun h => ?_⟩, [], by simp [Cluster.pass], ?_⟩
          · exact absurd h.create (by simp [hcreate])
          · simp only [true_iff]
            exact fun h => h.create hcreate
        | unanswered =>
          refine ⟨⟨i, by omega, by omega, by omega, fun h => ?_⟩, [i], rfl, ?_⟩
          · exact absurd h.create (by simp [hcreate])
          · simpa using ⟨⟨reqKey, hreq⟩, by simp [hcreate]⟩
        | created =>
          have hsucceeds : Succeeds call api i := ⟨⟨reqKey, hreq⟩, hcreate⟩
          have hrest := ih (i + 1) ((s'.pass call i reqKey).addJob i) _ rfl
          rw [← bind_pure_comp, EStateM.bind_apply]
          cases hrun : createJobs call api call.baseName (i + 1) left
              ((s'.pass call i reqKey).addJob i) with
          | ok labelSelectors s1 =>
            rw [hrun] at hrest
            obtain ⟨hjobs, hmem, hall⟩ := hrest
            refine ⟨?_, fun j => ?_, ?_⟩
            · rw [hjobs]
              simp [Cluster.addJob, Cluster.pass]
            · rw [List.mem_cons, hmem]
              omega
            · intro j hj
              obtain rfl | hj := List.mem_cons.mp hj
              · exact hsucceeds
              · exact hall j hj
          | error e s1 =>
            rw [hrun] at hrest
            obtain ⟨⟨j, hij, hjlt, hjmax, hfails⟩, jobs, hjobs, -⟩ := hrest
            refine ⟨⟨j, by omega, by omega, hjmax, hfails⟩, i :: jobs, ?_, ?_⟩
            · rw [hjobs]
              simp [Cluster.addJob, Cluster.pass]
            · simpa using hsucceeds.creates

/-- All jobs that exist when the call ends are represented in the list that reaches `scale_up`. -/
def NoOrphans (call : Submission) (api : Api) : Prop :=
  ∀ job ∈ ((submitJobs call api).after {}).jobs,
    Represented api (jobIdsOf (submitJobs call api {})) job

/-- If the loop creates a first job, all its iterations end normally and the pods of all jobs are
    found in time. -/
def AllOrNone (call : Submission) (api : Api) : Prop :=
  call.concurrentTasks < 2 ^ 63 → 0 < call.concurrentTasks → 0 < call.maxTasks →
    Creates call api 0 →
      ∀ i < call.concurrentTasks, i < call.maxTasks → Succeeds call api i ∧ api.Locates i

/-- No job that a call of `submit_jobs` creates is unknown to the service exactly if the call
    creates none, or if it creates all jobs and finds the pods of all of them. -/
theorem no_orphans_iff (call : Submission) (api : Api) :
    NoOrphans call api ↔ AllOrNone call api := by
  rw [NoOrphans, AllOrNone, submitJobs_after, submitJobs_apply]
  by_cases hn : 2 ^ 63 ≤ call.concurrentTasks
  · rw [if_pos hn, if_pos hn]
    exact ⟨fun _ hlt => by omega, fun _ job hjob => by cases hjob⟩
  · rw [if_neg hn, if_neg hn, EStateM.after]
    have hlt : call.concurrentTasks < 2 ^ 63 := by omega
    have hspec := @createJobs_spec call api call.concurrentTasks 0 {} {} rfl
    cases hrun : createJobs call api call.baseName 0 call.concurrentTasks {} with
    | error e s' =>
      rw [hrun] at hspec
      obtain ⟨⟨j, -, hj, hjmax, hfails⟩, jobs, hjobs, hnil⟩ := hspec
      simp only [List.nil_append, Nat.zero_add] at hjobs hj
      constructor
      · -- a job was created, and `scale_up` gets the empty list
        intro hrep _ _ _ hcreates
        have hne : jobs ≠ [] := fun h => hnil.mp h hcreates
        obtain ⟨job, hjob⟩ := List.exists_mem_of_ne_nil jobs hne
        exact absurd (hrep job (by simpa [hjobs] using hjob)) (not_represented_nil job)
      · intro hall
        have hnone : ¬Creates call api 0 := fun hcreates =>
          hfails (hall hlt (by omega) (by omega) hcreates j hj hjmax).1
        simp [hjobs, hnil.mpr hnone]
    | ok labelSelectors s' =>
      rw [hrun] at hspec
      obtain ⟨hjobs, hmem, hsucceeds⟩ := hspec
      simp only [List.nil_append, Nat.zero_add, Nat.zero_le, true_and] at hjobs hmem
      simp only [hjobs]
      constructor
      · intro hrep _ hpos hmaxpos _ i hi himax
        have hi' : i ∈ labelSelectors := (hmem i).mpr ⟨hi, himax⟩
        refine ⟨hsucceeds i hi', ?_⟩
        cases hlook : lookUp api labelSelectors with
        | error e =>
          rw [hlook] at hrep
          exact absurd (hrep i hi') (not_represented_nil i)
        | ok jobIds =>
          rw [hlook] at hrep
          exact locates_of_represented hlook hi' (hrep i hi')
      · intro hall job hjob
        have hbounds := (hmem job).mp hjob
        have hfirst : 0 ∈ labelSelectors := (hmem 0).mpr ⟨by omega, by omega⟩
        have hlocates : ∀ i ∈ labelSelectors, api.Locates i := fun i hi =>
          (hall hlt (by omega) (by omega) (hsucceeds 0 hfirst).creates i ((hmem i).mp hi).1
            ((hmem i).mp hi).2).2
        obtain ⟨jobIds, hlook, hrep⟩ := represented_of_locates hlocates
        rw [hlook]
        exact hrep job hjob

/-- Two jobs, of which Kubernetes refuses the second. -/
def Submission.twoJobs : Submission where
  frameworkName := ['f']
  maxTasks := 2
  concurrentTasks := 2
  suffix := List.replicate 8 '0'
  suffix_length := List.length_replicate

/-- The pod of each job is listed; the job with number `refused` is not created. -/
def Api.refusing (refused : Nat) : Api where
  create i := if i = refused then .refused else .created
  listNamespacedPod _ job := .ok [String.ofList ('p' :: List.replicate job '0')]
  distinct h h' hpod hpod' := by
    cases h
    cases h'
    have := (List.mem_singleton.mp hpod).symm.trans (List.mem_singleton.mp hpod')
    simpa using congrArg String.length this

/-- The first job runs, and `scale_up` gets an empty list. -/
theorem orphan_after_refusal : ¬NoOrphans Submission.twoJobs (Api.refusing 1) := by
  intro h
  have hjobs : 0 ∈ ((submitJobs Submission.twoJobs (Api.refusing 1)).after {}).jobs := by
    decide +kernel
  have hids : jobIdsOf (submitJobs Submission.twoJobs (Api.refusing 1) {}) = [] := by
    decide +kernel
  have hrep := h 0 hjobs
  rw [hids] at hrep
  exact not_represented_nil 0 hrep

end Urb.K8SAdapter
