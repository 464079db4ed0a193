import Urb.Spec.Launch

/-!
# Where the tasks of a message end up

After `launch_tasks` a task of the message should run on its slave, wait for the job of its
place-holder, or be reported lost. This file determines for which messages that is so. The
loop works on the tasks one after the other, and what one iteration decides about its task
the rest of the handler leaves alone (`Aside`). A task whose slave is unknown is only
logged, and one whose slave id names no job ends the whole call: it is `Stranded`.
-/

namespace Urb

open EStateM (Keeps bind_eq_ok modify_apply)

variable {o : Option LaunchVars} {k other taskId : String} {log new : List Effect}
    {v v' : LaunchVars} {t : TaskInfo} {s s' : State} {e : Effect}

variable {env : Env} {m : LaunchTasksMessage}

/-! ## The three situations -/

/-- The effects since the log had the given length. -/
def State.since (s : State) (n : Nat) : List Effect := s.effects.drop n

/-- The situations of a task after a call that started when the log had length `n`. -/
inductive Accounted (n : Nat) (t : TaskInfo) (s : State) : Prop
  /-- It was sent to its slave and debited there, and its record has the job of the slave. -/
  | running {k jobId : String} {x : Slave} {r : TaskRecord} {ids : List String}
      (hslave : t.slave = some k) (hx : s.framework.slaves.lookup k = some x)
      (hjob : NamingUtility.getJobIdFromSlaveId k = some jobId)
      (hsent : .launchTasks x.channel ids ∈ s.since n) (hids : t.taskId ∈ ids)
      (hdebit : .debited k t.taskId (t.resources.getD []) ∈ s.since n)
      (hrecord : s.framework.tasks.lookup t.taskId = some r) (hcarries : r.jobId = some jobId)
  /-- It named a place-holder, and its staging record has a submitted job. -/
  | waiting {k jobId : String} {r : TaskRecord} (hslave : t.slave = some k)
      (hplace : isPlaceholder k = true)
      (hrecord : s.framework.tasks.lookup t.taskId = some r) (hstate : r.state = .staging)
      (hcarries : r.jobId = some jobId) (hjob : Submitted s.effects jobId)
  /-- It was reported lost, and the deletion of its record is queued. -/
  | lost {channel : String} {k : Option String}
      (hsent : .statusUpdate channel t.taskId .lost k ∈ s.since n)
      (hqueued : ⟨.tasks, t.taskId⟩ ∈ s.deleteElements)

/-- Since the log had length `n` the task was neither debited nor reported lost. -/
def Untouched (n : Nat) (taskId : String) (s : State) : Prop :=
  ∀ e ∈ s.since n, e.settles ≠ some taskId

/-- The task is in none of the situations: nothing happened to it, and if it named a
    place-holder it does not wait for a job. -/
structure Stranded (n : Nat) (t : TaskInfo) (s : State) : Prop where
  untouched : Untouched n t.taskId s
  place : ∀ k r, t.slave = some k → isPlaceholder k = true →
    s.framework.tasks.lookup t.taskId = some r → r.state ≠ .staging

theorem Stranded.not_accounted {n : Nat} (h : Stranded n t s) : ¬Accounted n t s := by
  intro ha
  cases ha with
  | running _ _ _ _ _ hdebit _ _ => exact h.untouched _ hdebit rfl
  | waiting hslave hplace hrecord hstate _ _ => exact h.place _ _ hslave hplace hrecord hstate
  | lost hsent _ => exact h.untouched _ hsent rfl

/-! ## What leaves a task alone -/

/-- The code leaves the task alone. -/
structure Aside (taskId : String) (s s' : State) : Prop where
  record : s'.framework.tasks.lookup taskId = s.framework.tasks.lookup taskId
  channels : ∀ k, (s'.framework.slaves.lookup k).map (·.channel) =
    (s.framework.slaves.lookup k).map (·.channel)
  pending : s.deleteElements ⊆ s'.deleteElements
  log : ∃ new, s'.effects = s.effects ++ new ∧ ∀ e ∈ new, e.settles ≠ some taskId

namespace Aside

variable {taskId : String} {s s' s'' : State}

theorem refl (s : State) : Aside taskId s s :=
  ⟨rfl, fun _ => rfl, fun _ h => h, ⟨[], by simp, by simp⟩⟩

theorem trans (h : Aside taskId s s') (h' : Aside taskId s' s'') : Aside taskId s s'' where
  record := h'.record.trans h.record
  channels k := (h'.channels k).trans (h.channels k)
  pending _ hde := h'.pending (h.pending hde)
  log := exists_append_trans h.log h'.log

theorem of_worksOn (h : WorksOn other s s') (hne : taskId ≠ other) : Aside taskId s s' where
  record := h.others taskId hne
  channels := h.channels
  pending _ hde := h.pending ▸ hde
  log := by
    obtain ⟨new, hlog, hnew⟩ := h.log
    exact ⟨new, hlog, fun e he hk => hne (Effect.settles_of_concerns (hnew e he) hk)⟩

theorem lose (s : State) (slaveId : Option String) (hne : taskId ≠ other) :
    Aside taskId s (s.lose other slaveId) where
  record := by
    show (s.framework.modifyTask other _).tasks.lookup taskId = _
    rw [Framework.lookup_modifyTask, if_neg hne]
  channels k := by
    show ((s.framework.modifyTask other _).slaves.lookup k).map _ = _
    rw [Framework.slaves_modifyTask]
  pending := List.subset_append_left _ _
  log := by
    unfold State.lose
    dsimp only
    split
    · exact ⟨_, rfl, fun e he hk => by
        rw [List.mem_singleton.mp he] at hk
        exact hne (Option.some.inj hk).symm⟩
    · exact ⟨[], by simp, by simp⟩

/-! ### The offers that no task used -/

theorem emit (s : State) (e : Effect) (he : e.settles = none) : Aside taskId s (s.log e) :=
  ⟨rfl, fun _ => rfl, fun _ h => h, ⟨[e], rfl, by simp [he]⟩⟩

theorem of_refusal (h : Refusal s s') : Aside taskId s s' := by
  cases h with
  | emit e he =>
    refine emit s e ?_
    obtain rfl | ⟨channel, rfl⟩ := he <;> rfl
  | modifySlave k g hg =>
    refine ⟨?_, fun k' => ?_, fun _ h => h, ⟨[], by simp, by simp⟩⟩
    · show (s.framework.modifySlave k g).tasks.lookup taskId = _
      rw [Framework.tasks_modifySlave]
    · exact Framework.map_lookup_modifySlave s.framework k k' g fun x => (hg x).2.1
  | delete d k =>
    exact ⟨rfl, fun _ => rfl, List.subset_append_left _ _, ⟨[], by simp, by simp⟩⟩
  | framework f ht hs =>
    refine ⟨?_, fun k => ?_, fun _ h => h, ⟨[], by simp, by simp⟩⟩
    · show f.tasks.lookup taskId = _
      rw [ht]
    · show (f.slaves.lookup k).map _ = _
      rw [hs]

theorem processRemainingOffers (refuseSeconds : Option ℚ) (ids : List String) :
    Keeps (Aside taskId) (Urb.processRemainingOffers refuseSeconds ids) :=
  (Refusing.processRemainingOffers refuseSeconds ids).of_steps refl (fun _ _ _ => trans)
    fun _ _ => of_refusal

end Aside

section Stability

variable {n : Nat} {t : TaskInfo} {s s' : State}

theorem mem_since (hlog : s'.effects = s.effects ++ new) (he : e ∈ s.since n) : e ∈ s'.since n := by
  rw [State.since, hlog, List.drop_append]
  exact List.mem_append_left _ he

theorem mem_since_or (hlog : s'.effects = s.effects ++ new)
    (he : e ∈ s'.since n) : e ∈ s.since n ∨ e ∈ new := by
  rw [State.since, hlog, List.drop_append] at he
  rcases List.mem_append.mp he with he | he
  · exact Or.inl he
  · exact Or.inr (List.mem_of_mem_drop he)

theorem mem_since_new (hlog : s'.effects = s.effects ++ new)
    (hn : n ≤ s.effects.length) (he : e ∈ new) : e ∈ s'.since n := by
  rw [State.since, hlog, List.drop_append_of_le_length hn]
  exact List.mem_append_right _ he

theorem Submitted.append {jobId : String} (h : Submitted log jobId) :
    Submitted (log ++ new) jobId := by
  obtain ⟨jobs, hjobs, hmem⟩ := h
  exact ⟨jobs, List.mem_append_left _ hjobs, hmem⟩

theorem Untouched.aside (h : Untouched n taskId s) (ha : Aside taskId s s') :
    Untouched n taskId s' := by
  obtain ⟨new, hlog, hnew⟩ := ha.log
  intro e he
  rcases mem_since_or hlog he with he | he
  · exact h e he
  · exact hnew e he

theorem Stranded.aside (h : Stranded n t s) (ha : Aside t.taskId s s') : Stranded n t s' where
  untouched := h.untouched.aside ha
  place k r hslave hplace hrecord := h.place k r hslave hplace (by rw [← ha.record]; exact hrecord)

theorem Accounted.aside (h : Accounted n t s) (ha : Aside t.taskId s s') : Accounted n t s' := by
  obtain ⟨new, hlog, -⟩ := ha.log
  cases h with
  | running hslave hx hjob hsent hids hdebit hrecord hcarries =>
    rename_i k _ _ _ _
    have hmap := ha.channels k
    rw [hx] at hmap
    obtain ⟨x', hx', hchannel⟩ := Option.map_eq_some_iff.mp hmap
    dsimp only at hchannel
    rw [← hchannel] at hsent
    exact .running hslave hx' hjob (mem_since hlog hsent) hids (mem_since hlog hdebit)
      (by rw [ha.record]; exact hrecord) hcarries
  | waiting hslave hplace hrecord hstate hcarries hjob =>
    exact .waiting hslave hplace (by rw [ha.record]; exact hrecord) hstate hcarries
      (by rw [hlog]; exact hjob.append)
  | lost hsent hqueued => exact .lost (mem_since hlog hsent) (ha.pending hqueued)

end Stability

/-! ## What an iteration does with its task -/

/-- The task will be accounted for: it names a place-holder, and its loss can be reported or it
    keeps its record; or it names a slave that is there and has a job. -/
def Placeable (env : Env) (t : TaskInfo) (v : LaunchVars) (s : State) : Prop :=
  ∃ k, t.slave = some k ∧
    if isPlaceholder k then s.framework.reachable = true ∨
      PlaceholderKept env k v s.framework (s.effects ++ [.stored t.taskId])
    else k ∈ s.framework.slaves ∧ (NamingUtility.getJobIdFromSlaveId k).isSome

/-- The jobs that the iterations know were submitted. -/
def JobsSubmitted (v : LaunchVars) (log : List Effect) : Prop :=
  ∀ k jobId, v.placeholderToJobid.lookup k = some jobId → Submitted log jobId

theorem WorksOn.reachable (h : WorksOn taskId s s') :
    s'.framework.reachable = s.framework.reachable := by
  simp only [Framework.reachable, Framework.http, h.channelName, h.offerEvent]

section Iteration

variable {env : Env} {m : LaunchTasksMessage} {t : TaskInfo} {v : LaunchVars} {n : Nat}
  {s s' : State} {o : Option LaunchVars}

theorem aside_launchTask (hrun : launchTask env m t v s = .ok o s')
    (hne : taskId ≠ t.taskId) : Aside taskId s s' := by
  have hstage : Aside taskId s (s.stage m t) := .of_worksOn (.stage s m t) hne
  have hlaunched := launchTask_launched env m t v s
  rw [hrun] at hlaunched
  cases hlaunched with
  | placed hslave hplace h =>
    cases h with
    | lost _ hworks _ _ => exact (hstage.trans (.of_worksOn hworks hne)).trans (.lose _ _ hne)
    | waits _ hworks _ _ _ => exact hstage.trans (.of_worksOn hworks hne)
  | started hslave hplace h => exact hstage.trans (.of_worksOn h.worksOn hne)

theorem effects_lose (s : State) (taskId : String) (k : Option String) :
    (s.lose taskId k).effects = s.effects ++
      if s.framework.reachable then [.statusUpdate s.framework.channelName taskId .lost k]
      else [] := by
  unfold State.lose
  dsimp only
  split
  · rfl
  · rw [List.append_nil]

theorem JobsSubmitted.extend (h : JobsSubmitted v log)
    (hext : v.Extends v' (log ++ new)) : JobsSubmitted v' (log ++ new) := by
  intro k jobId hk
  rcases hext k jobId hk with hk | hk
  · exact (h k jobId hk).append
  · exact hk

theorem Placed.extends (h : Placed env t k v s (.ok v' s')) :
    (∃ new, s'.effects = s.effects ++ new) ∧ v.Extends v' s'.effects := by
  cases h with
  | lost _ hworks _ hvars =>
    obtain ⟨new, hlog, -⟩ := hworks.log
    rw [effects_lose, hlog, List.append_assoc]
    refine ⟨⟨_, rfl⟩, fun k jobId hk => ?_⟩
    rcases hvars k jobId hk with hk | hk
    · exact Or.inl hk
    · rw [hlog] at hk
      rw [← List.append_assoc]
      exact Or.inr hk.append
  | waits _ hworks _ _ hvars =>
    obtain ⟨new, hlog, -⟩ := hworks.log
    exact ⟨⟨new, hlog⟩, hvars⟩

theorem log_launchTask (hrun : launchTask env m t v s = .ok o s') :
    ∃ new, s'.effects = s.effects ++ [.stored t.taskId] ++ new := by
  have hlaunched := launchTask_launched env m t v s
  rw [hrun] at hlaunched
  cases hlaunched with
  | placed _ _ hp => exact hp.extends.1
  | started _ _ hp =>
    obtain ⟨new, hlog, -⟩ := hp.worksOn.log
    exact ⟨new, hlog⟩

theorem JobsSubmitted.launchTask (h : JobsSubmitted v s.effects)
    (hrun : launchTask env m t v s = .ok (some v') s') : JobsSubmitted v' s'.effects := by
  obtain ⟨new, hlog⟩ := log_launchTask hrun
  rw [List.append_assoc] at hlog
  have hlaunched := launchTask_launched env m t v s
  rw [hrun] at hlaunched
  cases hlaunched with
  | placed _ _ hp =>
    have hvars := hp.extends.2
    rw [hlog] at hvars ⊢
    exact h.extend hvars
  | started _ _ hp =>
    rw [hlog]
    refine h.extend fun k jobId hk => Or.inl ?_
    rw [← hp.placeholderToJobid]
    exact hk

/-- What an iteration does with its task. -/
theorem accounted_launchTask (hrun : launchTask env m t v s = .ok o s') (hm : t ∈ m.tasks)
    (hn : n ≤ s.effects.length) (hv : JobsSubmitted v s.effects) (h : Placeable env t v s) :
    Accounted n t s' := by
  have hstage : n ≤ (s.stage m t).effects.length := by
    simp only [State.stage, List.length_append]
    omega
  obtain ⟨k, hk, hplaceable⟩ := h
  have hlaunched := launchTask_launched env m t v s
  rw [hrun] at hlaunched
  cases hlaunched with
  | placed hslave hplace hp =>
    cases hk.symm.trans hslave
    rw [if_pos hplace] at hplaceable
    cases hp with
    | @lost _ s1 hnot hworks _ _ =>
      -- the task is not kept, so its loss can be reported
      have hreachable := hplaceable.resolve_right hnot
      rw [← (WorksOn.stage s m t).reachable, ← hworks.reachable] at hreachable
      obtain ⟨new, hlog, -⟩ := hworks.log
      have hlose := effects_lose s1 t.taskId (some k)
      rw [if_pos hreachable] at hlose
      refine .lost (mem_since_new hlose ?_ (List.mem_singleton.mpr rfl)) ?_
      · rw [hlog, List.length_append]
        omega
      · exact List.mem_append_right _ (List.mem_singleton.mpr rfl)
    | waits _ hworks hrecord hjob _ =>
      obtain ⟨new, hlog, -⟩ := ((WorksOn.stage s m t).trans hworks).log
      rw [State.lookup_stage, Option.map_some] at hrecord
      refine .waiting hslave hplace hrecord rfl rfl ?_
      rcases hjob with hjob | hjob
      · rw [hlog]
        exact (hv _ _ hjob).append
      · exact hjob
  | started hslave hplace hp =>
    cases hk.symm.trans hslave
    rw [hplace, if_neg Bool.false_ne_true] at hplaceable
    obtain ⟨hmem, hsome⟩ := hplaceable
    cases hp with
    | unknown hnone =>
      exact (AList.lookup_eq_none.mp hnone hmem).elim
    | jobless _ hnone =>
      rw [hnone] at hsome
      cases hsome
    | running hx hjob hworks hlog hsent hdebit hrecord =>
      obtain ⟨x', hx', hchannel⟩ := hworks.slave hx
      rw [← hchannel] at hsent
      rw [State.lookup_stage, Option.map_some] at hrecord
      obtain ⟨r, hr, hcarries⟩ := Option.map_eq_some_iff.mp hrecord
      exact .running hslave hx' hjob (mem_since_new hlog hstage hsent)
        (List.mem_map.mpr ⟨t, hm, rfl⟩) (mem_since_new hlog hstage hdebit) hr hcarries

theorem stranded_launchTask (hrun : launchTask env m t v s = .ok o s')
    (hu : Untouched n t.taskId s) (h : ¬Placeable env t v s) : Stranded n t s' := by
  have hstage : Untouched n t.taskId (s.stage m t) := by
    intro e he
    rcases mem_since_or rfl he with he | he
    · exact hu e he
    · rw [List.mem_singleton.mp he]
      exact nofun
  have hlaunched := launchTask_launched env m t v s
  rw [hrun] at hlaunched
  cases hlaunched with
  | @placed k _ _ hslave hplace hp =>
    cases hp with
    | @lost _ s1 hnot hworks hlog _ =>
      -- the loss cannot be reported either
      have hreachable : s1.framework.reachable ≠ true := by
        rw [hworks.reachable, (WorksOn.stage s m t).reachable]
        intro hreachable
        exact h ⟨_, hslave, by rw [if_pos hplace]; exact Or.inl hreachable⟩
      obtain ⟨new, hlog, hnew⟩ := hlog
      have hlose := effects_lose s1 t.taskId (some k)
      rw [if_neg hreachable, List.append_nil, hlog] at hlose
      refine ⟨fun e he => ?_, fun _ r _ _ hrecord => ?_⟩
      · rcases mem_since_or hlose he with he | he
        · exact hstage e he
        · rw [hnew e he]
          exact nofun
      · have hlookup :
            (s1.framework.modifyTask t.taskId (markLost s1.clock)).tasks.lookup t.taskId =
            some r := hrecord
        rw [Framework.lookup_modifyTask, if_pos rfl] at hlookup
        obtain ⟨r1, -, rfl⟩ := Option.map_eq_some_iff.mp hlookup
        exact nofun
    | waits hkept _ _ _ _ => exact (h ⟨_, hslave, by rw [if_pos hplace]; exact Or.inr hkept⟩).elim
  | started hslave hplace hp =>
    have hnot : ∀ k r, t.slave = some k → isPlaceholder k = true →
        s'.framework.tasks.lookup t.taskId = some r → r.state ≠ .staging := by
      intro k r hk hplace'
      cases hslave.symm.trans hk
      rw [hplace] at hplace'
      cases hplace'
    cases hp with
    | unknown _ => exact ⟨hstage, hnot⟩
    | jobless _ _ => exact ⟨hstage, hnot⟩
    | running hx hjob _ _ _ _ _ =>
      refine (h ⟨_, hslave, ?_⟩).elim
      rw [hplace, if_neg Bool.false_ne_true]
      exact ⟨AList.lookup_isSome.mp (by rw [show s.framework.slaves.lookup _ = _ from hx]; rfl),
        by rw [hjob]; rfl⟩

theorem placeholder_continues (hrun : launchTask env m t v s = .ok none s')
    (hk : t.slave = some k) (hplace : isPlaceholder k = true) : False := by
  have hlaunched := launchTask_launched env m t v s
  rw [hrun] at hlaunched
  cases hlaunched with
  | started hslave hplace' _ =>
    rw [← Option.some.inj (hk.symm.trans hslave), hplace] at hplace'
    cases hplace'

theorem not_placeable_of_none (hrun : launchTask env m t v s = .ok none s') :
    ¬Placeable env t v s := by
  rintro ⟨k, hk, hplaceable⟩
  have hlaunched := launchTask_launched env m t v s
  rw [hrun] at hlaunched
  cases hlaunched with
  | started hslave hplace hp =>
    cases hk.symm.trans hslave
    rw [hplace, if_neg Bool.false_ne_true] at hplaceable
    cases hp with
    | jobless _ hnone =>
      rw [hnone] at hplaceable
      cases hplaceable.2

end Iteration

/-! ## The loop and the whole handler -/

/-- The condition on the tasks, each looked at in the state before its iteration. -/
def AllPlaceable (env : Env) (m : LaunchTasksMessage) : List TaskInfo → LaunchVars → State → Prop
  | [], _, _ => True
  | t :: rest, v, s => Placeable env t v s ∧
    match launchTask env m t v s with
    | .ok (some v') s' => AllPlaceable env m rest v' s'
    | _ => True

section Loop

variable {env : Env} {m : LaunchTasksMessage} {n : Nat}

variable {ts : List TaskInfo} {v : LaunchVars}

theorem aside_launchLoop (hrun : launchLoop env m ts v s = .ok o s')
    (hne : ∀ t ∈ ts, taskId ≠ t.taskId) : Aside taskId s s' := by
  induction ts generalizing v s with
  | nil =>
    cases hrun
    exact .refl _
  | cons t rest ih =>
    rw [launchLoop, bind_eq_ok] at hrun
    obtain ⟨o1, s1, htask, hrest⟩ := hrun
    have haside := aside_launchTask htask (hne t (by simp))
    cases o1 with
    | none =>
      cases hrest
      exact haside
    | some v1 => exact haside.trans (ih hrest fun t' ht' => hne t' (List.mem_cons_of_mem _ ht'))

theorem accounted_launchLoop (hrun : launchLoop env m ts v s = .ok o s') (hm : ts ⊆ m.tasks)
    (hids : (ts.map (·.taskId)).Nodup) (hn : n ≤ s.effects.length)
    (hv : JobsSubmitted v s.effects) (h : AllPlaceable env m ts v s) :
    ∀ t ∈ ts, Accounted n t s' := by
  induction ts generalizing v s with
  | nil => exact fun t ht => by cases ht
  | cons t rest ih =>
    rw [launchLoop, bind_eq_ok] at hrun
    obtain ⟨o1, s1, htask, hrest⟩ := hrun
    obtain ⟨hplaceable, hnext⟩ := h
    rw [htask] at hnext
    rw [List.map_cons, List.nodup_cons] at hids
    have hacc := accounted_launchTask htask (hm (by simp)) hn hv hplaceable
    have hne : ∀ t' ∈ rest, t.taskId ≠ t'.taskId := fun t' ht' heq =>
      hids.1 (heq ▸ List.mem_map.mpr ⟨t', ht', rfl⟩)
    cases o1 with
    | none => exact (not_placeable_of_none htask hplaceable).elim
    | some v1 =>
      obtain ⟨new, hlog⟩ := log_launchTask htask
      have hn1 : n ≤ s1.effects.length := by
        rw [hlog, List.length_append, List.length_append]
        omega
      have hrest' := ih hrest (fun t' ht' => hm (List.mem_cons_of_mem _ ht')) hids.2 hn1
        (hv.launchTask htask) hnext
      intro t' ht'
      rcases List.mem_cons.mp ht' with rfl | ht'
      · exact hacc.aside (aside_launchLoop hrest hne)
      · exact hrest' t' ht'

theorem stranded_launchLoop (hrun : launchLoop env m ts v s = .ok o s')
    (hids : (ts.map (·.taskId)).Nodup) (hu : ∀ t ∈ ts, Untouched n t.taskId s)
    (h : ¬AllPlaceable env m ts v s) : ∃ t ∈ ts, Stranded n t s' := by
  induction ts generalizing v s with
  | nil => exact (h trivial).elim
  | cons t rest ih =>
    rw [launchLoop, bind_eq_ok] at hrun
    obtain ⟨o1, s1, htask, hrest⟩ := hrun
    rw [List.map_cons, List.nodup_cons] at hids
    have hne : ∀ t' ∈ rest, t.taskId ≠ t'.taskId := fun t' ht' heq =>
      hids.1 (heq ▸ List.mem_map.mpr ⟨t', ht', rfl⟩)
    by_cases hplaceable : Placeable env t v s
    · cases o1 with
      | none => exact (not_placeable_of_none htask hplaceable).elim
      | some v1 =>
        have hnext : ¬AllPlaceable env m rest v1 s1 := by
          intro hnext
          refine h ⟨hplaceable, ?_⟩
          rw [htask]
          exact hnext
        have hu1 : ∀ t' ∈ rest, Untouched n t'.taskId s1 := fun t' ht' =>
          (hu t' (List.mem_cons_of_mem _ ht')).aside (aside_launchTask htask (hne t' ht').symm)
        obtain ⟨t', ht', hstranded⟩ := ih hrest hids.2 hu1 hnext
        exact ⟨t', List.mem_cons_of_mem _ ht', hstranded⟩
    · -- what comes after the iteration does not help its task
      have hstranded := stranded_launchTask htask (hu t (by simp)) hplaceable
      refine ⟨t, by simp, ?_⟩
      cases o1 with
      | none =>
        cases hrest
        exact hstranded
      | some v1 => exact hstranded.aside (aside_launchLoop hrest hne)

end Loop

/-- `launch_tasks` of an active framework, once it has returned: the loop, and the offers that
    are left. -/
theorem launchTasks_eq_ok {entry : Entry} {m : LaunchTasksMessage}
    (hactive : s.tracking = .active) (hrun : launchTasks env entry m s = .ok () s') :
    ∃ o s1, launchLoop env m m.tasks {} s.withTaskDict = .ok o s1 ∧
      ∀ taskId, Aside taskId s1 s' := by
  rw [launchTasks_of_active env entry m hactive, launchActive, bind_eq_ok] at hrun
  obtain ⟨o, s1, hloop, hrest⟩ := hrun
  refine ⟨o, s1, hloop, fun taskId => ?_⟩
  cases o with
  | none =>
    cases hrest
    exact .refl _
  | some v =>
    have haside : Aside taskId s1
        ((Urb.processRemainingOffers m.refuseSeconds (v.remainingOffers m)).after s1) :=
      Aside.processRemainingOffers m.refuseSeconds (v.remainingOffers m) s1
    rw [EStateM.after_of_ok hrest] at haside
    exact haside

/-! ## The condition on the message -/

/-- The task names a place-holder, or a slave that is there and whose id names a job. -/
def Addressed (t : TaskInfo) (f : Framework) : Prop :=
  ∃ k, t.slave = some k ∧
    (isPlaceholder k = false → k ∈ f.slaves ∧ (NamingUtility.getJobIdFromSlaveId k).isSome)

/-- Each task of a place-holder keeps its record when its turn comes. -/
def KeptInTurn (env : Env) (m : LaunchTasksMessage) : List TaskInfo → LaunchVars → State → Prop
  | [], _, _ => True
  | t :: rest, v, s =>
    (∀ k, t.slave = some k → isPlaceholder k = true →
      PlaceholderKept env k v s.framework (s.effects ++ [.stored t.taskId])) ∧
    match launchTask env m t v s with
    | .ok (some v') s' => KeptInTurn env m rest v' s'
    | _ => True

theorem placeable_iff :
    Placeable env t v s ↔ Addressed t s.framework ∧ (s.framework.reachable = true ∨
      ∀ k, t.slave = some k → isPlaceholder k = true →
        PlaceholderKept env k v s.framework (s.effects ++ [.stored t.taskId])) := by
  constructor
  · rintro ⟨k, hk, h⟩
    cases hplace : isPlaceholder k with
    | true =>
      rw [hplace, if_pos rfl] at h
      refine ⟨⟨k, hk, fun hp => by rw [hplace] at hp; cases hp⟩, h.imp_right fun h k' hk' _ => ?_⟩
      rw [← Option.some.inj (hk.symm.trans hk')]
      exact h
    | false =>
      rw [hplace, if_neg Bool.false_ne_true] at h
      refine ⟨⟨k, hk, fun _ => h⟩, .inr fun k' hk' hplace' => ?_⟩
      rw [← Option.some.inj (hk.symm.trans hk'), hplace] at hplace'
      cases hplace'
  · rintro ⟨⟨k, hk, haddr⟩, h⟩
    refine ⟨k, hk, ?_⟩
    cases hplace : isPlaceholder k with
    | true => exact h.imp_right fun h => h k hk hplace
    | false => exact haddr hplace

theorem addressed_launchTask (hrun : launchTask env m t v s = .ok o s') :
    (∀ t', Addressed t' s'.framework ↔ Addressed t' s.framework) ∧
      s'.framework.reachable = s.framework.reachable := by
  have hstage := WorksOn.stage s m t
  have hsame : (∀ k, (s'.framework.slaves.lookup k).map (·.channel) =
      (s.framework.slaves.lookup k).map (·.channel)) ∧
      s'.framework.reachable = s.framework.reachable := by
    have hlaunched := launchTask_launched env m t v s
    rw [hrun] at hlaunched
    cases hlaunched with
    | placed hslave hplace h =>
      cases h with
      | @lost _ s1 _ hworks _ _ =>
        have hall := (hstage.trans hworks).trans (.modifyTask s1 (markLost s1.clock))
        exact ⟨hall.channels, hall.reachable⟩
      | waits _ hworks _ _ _ =>
        have hall := hstage.trans hworks
        exact ⟨hall.channels, hall.reachable⟩
    | started hslave hplace h =>
      have hall := hstage.trans h.worksOn
      exact ⟨hall.channels, hall.reachable⟩
  have hmem : ∀ k, k ∈ s'.framework.slaves ↔ k ∈ s.framework.slaves := by
    intro k
    have hk := congrArg Option.isSome (hsame.1 k)
    rw [Option.isSome_map, Option.isSome_map] at hk
    rw [← AList.lookup_isSome, ← AList.lookup_isSome, hk]
  exact ⟨fun t' => by simp only [Addressed, hmem], hsame.2⟩

/-- The tasks of a loop that returns can all be placed exactly if they are all addressed, and
    their losses can be reported or do not occur. -/
theorem allPlaceable_iff {ts : List TaskInfo} (hrun : launchLoop env m ts v s = .ok o s') :
    AllPlaceable env m ts v s ↔ (∀ t ∈ ts, Addressed t s.framework) ∧
      (s.framework.reachable = true ∨ KeptInTurn env m ts v s) := by
  induction ts generalizing v s with
  | nil => simp [AllPlaceable, KeptInTurn]
  | cons t rest ih =>
    rw [launchLoop, bind_eq_ok] at hrun
    obtain ⟨o1, s1, htask, hrest⟩ := hrun
    rw [AllPlaceable, KeptInTurn, htask, List.forall_mem_cons]
    cases o1 with
    | none =>
      -- the loop ends at a task that is not addressed
      have hnot := not_placeable_of_none htask
      have hnone : ¬Addressed t s.framework := by
        intro haddr
        obtain ⟨k, hk, hslave⟩ := haddr
        cases hplace : isPlaceholder k with
        | true => exact placeholder_continues htask hk hplace
        | false =>
          refine hnot ⟨k, hk, ?_⟩
          rw [hplace, if_neg Bool.false_ne_true]
          exact hslave hplace
      exact ⟨fun h => (hnot h.1).elim, fun h => (hnone h.1.1).elim⟩
    | some v1 =>
      obtain ⟨haddr, hreach⟩ := addressed_launchTask htask
      dsimp only
      rw [ih hrest, placeable_iff, hreach]
      simp only [haddr]
      tauto

/-- After `launch_tasks` has returned, all tasks of a message with distinct ids are accounted
    for exactly if each of them names a place-holder or a slave that is there and has a job, and
    the framework can be told about a loss or no task of a place-holder is lost. -/
theorem launch_accounts_iff (env : Env) (entry : Entry) (m : LaunchTasksMessage) (s s' : State)
    (hactive : s.tracking = .active) (hids : (m.tasks.map (·.taskId)).Nodup)
    (hrun : launchTasks env entry m s = .ok () s') :
    (∀ t ∈ m.tasks, Accounted s.effects.length t s') ↔
      (∀ t ∈ m.tasks, Addressed t s.framework) ∧
        (s.framework.reachable = true ∨ KeptInTurn env m m.tasks {} s.withTaskDict) := by
  obtain ⟨o, s1, hloop, haside⟩ := launchTasks_eq_ok hactive hrun
  have hiff := allPlaceable_iff hloop
  show _ ↔ (∀ t ∈ m.tasks, Addressed t s.withTaskDict.framework) ∧
    (s.withTaskDict.framework.reachable = true ∨ KeptInTurn env m m.tasks {} s.withTaskDict)
  rw [← hiff]
  constructor
  · intro hacc
    by_contra hnot
    -- when the call starts, nothing has happened to the tasks
    have hu : ∀ t ∈ m.tasks, Untouched s.effects.length t.taskId s.withTaskDict := by
      intro t _ e he
      have hnil : s.withTaskDict.since s.effects.length = [] := List.drop_length
      rw [hnil] at he
      cases he
    obtain ⟨t, ht, hstranded⟩ := stranded_launchLoop hloop hids hu hnot
    exact (hstranded.aside (haside t.taskId)).not_accounted (hacc t ht)
  · intro hall t ht
    have hv : JobsSubmitted {} s.withTaskDict.effects := fun k jobId hk => by cases hk
    have hacc := accounted_launchLoop hloop (fun _ h => h) hids (Nat.le_refl _) hv hall t ht
    exact hacc.aside (haside t.taskId)

/-- A task for a slave that is registered. -/
theorem launch_accounts_running :
    let s := step Sample.env Sample.start (.queued (.registerExecutorRunner Sample.runner))
    Accounted s.effects.length (Sample.task "t")
      ((launchTasks Sample.env .queue { tasks := [Sample.task "t"] }).after s) := by
  intro s
  have hrun := EStateM.eq_ok_of_returned
    (show (launchTasks Sample.env .queue { tasks := [Sample.task "t"] } s).returned = true by
      decide +kernel)
  refine (launch_accounts_iff Sample.env .queue { tasks := [Sample.task "t"] } s _
    (by decide +kernel) (by decide) hrun).mpr ⟨?_, .inl (by decide +kernel)⟩ (Sample.task "t")
      (by simp)
  intro t ht
  rw [List.mem_singleton.mp ht]
  exact ⟨Sample.slaveId, rfl, fun _ => ⟨by decide +kernel, by decide +kernel⟩⟩

/-- A task for a slave that is not in `slave_dict` is only logged: it keeps its `STAGING` record
    and nobody hears of it again. -/
theorem unknown_slave_stranded :
    let m : LaunchTasksMessage := { tasks := [Sample.task "t"] }
    let s' := (launchTasks Sample.env .queue m).after Sample.start
    launchTasks Sample.env .queue m Sample.start = .ok () s' ∧
      s'.effects = [.stored "t"] ∧
      (s'.framework.tasks.lookup "t").map (·.state) = some .staging ∧
      ¬Accounted Sample.start.effects.length (Sample.task "t") s' := by
  intro m s'
  have hlog : s'.effects = [.stored "t"] := by decide +kernel
  have hstranded : Stranded 0 (Sample.task "t") s' := by
    refine ⟨?_, ?_⟩
    · intro e he
      rw [State.since, hlog] at he
      rw [List.mem_singleton.mp he]
      exact nofun
    · rintro k r ⟨⟩ hplace
      have hslave : isPlaceholder Sample.slaveId = false := by decide +kernel
      rw [hslave] at hplace
      cases hplace
  exact ⟨EStateM.eq_ok_of_returned (by decide +kernel), hlog, by decide +kernel,
    hstranded.not_accounted⟩

end Urb
