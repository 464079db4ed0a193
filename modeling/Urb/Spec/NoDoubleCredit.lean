import Urb.Spec.Booked

/-!
# No double credit

A slave with a custom executor is credited by two handlers, `kill_task` and
`handle_status_update`, and the record that would prevent a second credit is only
queued for deletion. The credits of a run are covered by debits as long as every
credit is due when it is made: the record of the task is not queued for deletion
already, and it was debited on that very slave.
-/

namespace Urb

open EStateM (Triple)

/-! ## When a credit is due -/

/-- The slave is there and runs a custom executor. -/
def State.runsCustom (s : State) (slaveId : String) : Bool :=
  (s.framework.slaves.lookup slaveId).any (!·.isCommandExecutor)

/-- The task was debited on the slave since its record was stored, and the record is not
    queued for deletion. -/
structure Due (s : State) (taskId slaveId : String) : Prop where
  pending : ⟨.tasks, taskId⟩ ∉ s.deleteElements
  charged : (chargedOn taskId s.effects).map (·.1) = some slaveId

/-- If killing the task credits a slave, then the credit is due. -/
def KillDue (s : State) (taskId : String) : Prop :=
  ∀ task k, s.framework.tasks.lookup taskId = some task →
    task.taskInfo.killSlave.bind s.framework.resolveSlave = some k → s.runsCustom k →
    Due s taskId k

/-- If the update credits a slave, then the credit is due. -/
def ReleaseDue (s : State) (u : StatusUpdate) : Prop :=
  u.state.releases → ∀ task k, s.framework.tasks.lookup u.taskId = some task →
    u.slave task.taskInfo = some k → s.runsCustom k → Due s u.taskId k

/-- If the update credits a slave, then the port ranges of the task can be added to those that
    the slave has at this moment, so that the credit does not raise. -/
def PortsReturn (env : Env) (s : State) (u : StatusUpdate) : Prop :=
  u.state.releases → ∀ task k x, s.framework.tasks.lookup u.taskId = some task →
    u.slave task.taskInfo = some k → s.framework.slaves.lookup k = some x →
    x.isCommandExecutor = false → PortsOk env.portAdd x.ports (task.taskInfo.resources.getD [])

/-- The same of updates that are handled one after the other. -/
def AllPortsReturn (env : Env) : State → List StatusUpdate → Prop
  | _, [] => True
  | s, u :: us => PortsReturn env s u ∧ AllPortsReturn env ((handleStatusUpdate env u).after s) us

/-- What `reregister_executor` does before it handles the updates. -/
def rejoin (env : Env) (m : ReregisterExecutorMessage) (slaveId jobId : String) :
    Handler Unit := do
  modifyFramework (·.modifySlave slaveId ({ · with executorChannel := some m.channel }))
  reregisterTasks env slaveId jobId m.channel m.tasks

/-- The credits of a re-registration are due: no task is ended twice or is queued for
    deletion, the updates of the reported tasks are about the slave that reports them, the
    updates of other tasks are due by themselves, and the ports of the ended tasks can be
    returned when their turn comes. -/
structure ReplayDue (env : Env) (s : State) (m : ReregisterExecutorMessage) (slaveId : String) :
    Prop where
  once : m.updates.Pairwise fun a b =>
    a.state.releases → b.state.releases → a.taskId ≠ b.taskId
  reported : ∀ u ∈ m.updates, u.state.releases → ∀ t ∈ m.tasks, t.taskId = u.taskId →
    ⟨.tasks, u.taskId⟩ ∉ s.deleteElements ∧
    ∀ k, u.slave t = some k → s.runsCustom k → k = slaveId
  known : ∀ u ∈ m.updates, (∀ t ∈ m.tasks, t.taskId ≠ u.taskId) → ReleaseDue s u
  ports : ∀ jobId, NamingUtility.getJobIdFromSlaveId slaveId = some jobId →
    AllPortsReturn env ((rejoin env m slaveId jobId).after s) (sortedUpdates m.updates)

/-! Amounts are doubles in the source and rational numbers here. The two agree on sums of at most
`2 ^ 20` multiples of `1 / 1024` that are at most `2 ^ 20`. -/

/-- An amount with which doubles compute exactly. -/
def ExactAmount (q : ℚ) : Prop := 0 ≤ q ∧ q ≤ 2 ^ 20 ∧ (q * 1024).den = 1

instance (q : ℚ) : Decidable (ExactAmount q) :=
  inferInstanceAs (Decidable (0 ≤ q ∧ q ≤ 2 ^ 20 ∧ (q * 1024).den = 1))

/-- The resources ask for such amounts. -/
def ExactAmounts (rs : List Resource) : Prop := ∀ r ∈ rs, ExactAmount (r.scalar.getD 0)

instance (rs : List Resource) : Decidable (ExactAmounts rs) :=
  inferInstanceAs (Decidable (∀ r ∈ rs, ExactAmount (r.scalar.getD 0)))

theorem ExactAmounts.nonNeg {rs : List Resource} (h : ExactAmounts rs) : NonNeg rs :=
  fun r hr => (h r hr).1

/-- The credits that a request leads to are due, and doubles compute exactly with the amounts of
    its tasks. -/
structure Request.CreditsDue (env : Env) (s : State) (r : Request) : Prop where
  amounts : ∀ t ∈ r.tasks, ExactAmounts (t.resources.getD [])
  kill : ∀ taskId, r = .killTask taskId → s.tracking = .active → KillDue s taskId
  update : ∀ u, r = .statusUpdate u → s.tracking = .active →
    ReleaseDue s u ∧ PortsReturn env s u
  replay : ∀ m k, r = .reregisterExecutor m → s.tracking = .active →
    s.framework.slaveOnChannel m.replyTo = some k → ReplayDue env s m k

/-- The condition on an event and the state before it. Debits and credits are among the effects. -/
structure CreditsDue (env : Env) (s : State) (e : Event) : Prop where
  due : ∀ entry r, e.request = some (entry, r) → r.CreditsDue env s
  config : ∀ n, ExactAmount (s.framework.config.scalar n)
  effects : (step env s e).effects.length ≤ 2 ^ 20

theorem Request.CreditsDue.nonneg {env : Env} {s : State} {r : Request} (h : r.CreditsDue env s) :
    ∀ t ∈ r.tasks, NonNeg (t.resources.getD []) :=
  fun t ht => (h.amounts t ht).nonNeg

theorem Request.CreditsDue.of_endsNoTask {env : Env} {s : State} {r : Request}
    (hr : r.endsNoTask) (hn : ∀ t ∈ r.tasks, ExactAmounts (t.resources.getD [])) :
    r.CreditsDue env s where
  amounts := hn
  kill := by rintro _ rfl; cases hr
  update := by rintro _ rfl; cases hr
  replay := by rintro _ _ rfl; cases hr

/-! ## What stays due -/

/-- Apart from the listed tasks, no record is replaced, charged or queued for deletion, and
    no slave starts to run a custom executor. -/
structure Undisturbed (X : Set String) (s s' : State) : Prop where
  infos : ∀ k ∉ X, (s'.framework.tasks.lookup k).map (·.taskInfo) =
    (s.framework.tasks.lookup k).map (·.taskInfo)
  charges : ∀ k ∉ X, chargedOn k s'.effects = chargedOn k s.effects
  pending : ∀ k ∉ X, ⟨.tasks, k⟩ ∈ s'.deleteElements → ⟨.tasks, k⟩ ∈ s.deleteElements
  custom : ∀ k, s'.runsCustom k → s.runsCustom k

namespace Undisturbed

variable {X Y : Set String} {s s1 s2 : State}

theorem refl (X : Set String) (s : State) : Undisturbed X s s :=
  ⟨fun _ _ => rfl, fun _ _ => rfl, fun _ _ h => h, fun _ h => h⟩

theorem trans (h : Undisturbed X s s1) (h' : Undisturbed X s1 s2) : Undisturbed X s s2 :=
  ⟨fun k hk => (h'.infos k hk).trans (h.infos k hk),
    fun k hk => (h'.charges k hk).trans (h.charges k hk),
    fun k hk hp => h.pending k hk (h'.pending k hk hp), fun k hc => h.custom k (h'.custom k hc)⟩

theorem mono (h : Undisturbed X s s1) (hXY : X ⊆ Y) : Undisturbed Y s s1 :=
  ⟨fun k hk => h.infos k fun hX => hk (hXY hX), fun k hk => h.charges k fun hX => hk (hXY hX),
    fun k hk => h.pending k fun hX => hk (hXY hX), h.custom⟩

theorem releaseDue {u : StatusUpdate} (h : Undisturbed X s s1) (hu : u.taskId ∉ X)
    (hdue : ReleaseDue s u) : ReleaseDue s1 u := by
  intro hrel task k htask hk hc
  have hinfo := h.infos u.taskId hu
  rw [htask] at hinfo
  obtain ⟨task', htask', hsame⟩ := Option.map_eq_some_iff.mp hinfo.symm
  replace hsame : task'.taskInfo = task.taskInfo := hsame
  have hk' : u.slave task'.taskInfo = some k := by rw [hsame]; exact hk
  have hd := hdue hrel task' k htask' hk' (h.custom k hc)
  refine ⟨fun hp => hd.pending (h.pending _ hu hp), ?_⟩
  rw [h.charges _ hu]
  exact hd.charged

theorem of_framework {f : Framework}
    (hi : ∀ k, (f.tasks.lookup k).map (·.taskInfo) = (s.framework.tasks.lookup k).map (·.taskInfo))
    (hc : ∀ k, State.runsCustom { s with framework := f } k → s.runsCustom k) :
    Undisturbed X s { s with framework := f } :=
  ⟨fun k _ => hi k, fun _ _ => rfl, fun _ _ h => h, hc⟩

theorem modifySlave {slaveId : String} {g : Slave → Slave}
    (hg : ∀ x, (g x).isCommandExecutor = false → x.isCommandExecutor = false) :
    Undisturbed X s { s with framework := s.framework.modifySlave slaveId g } := by
  refine of_framework (fun k => by simp) fun k hc => ?_
  simp only [State.runsCustom, Framework.lookup_modifySlave] at hc ⊢
  split at hc
  · rename_i hk; subst hk
    cases hx : s.framework.slaves.lookup k with
    | none => simp [hx] at hc
    | some x =>
      simp only [hx, Option.map_some, Option.any_some, Bool.not_eq_true'] at hc ⊢
      exact hg x hc
  · exact hc

theorem modifyTask {taskId : String} {g : TaskRecord → TaskRecord}
    (hg : ∀ r, (g r).taskInfo = r.taskInfo) :
    Undisturbed X s { s with framework := s.framework.modifyTask taskId g } := by
  refine of_framework (fun k => ?_) fun k hc => ?_
  · rw [Framework.lookup_modifyTask]
    split
    · rename_i hk; subst hk
      cases s.framework.tasks.lookup k <;> simp [hg]
    · rfl
  · simpa only [State.runsCustom, Framework.slaves_modifyTask] using hc

theorem log {e : Effect} (he : ∀ k ∉ X, ∀ c, e.charge k c = c) : Undisturbed X s (s.log e) :=
  ⟨fun _ _ => rfl, fun k hk => (chargedOn_snoc k s.effects e).trans (he k hk _),
    fun _ _ h => h, fun _ h => h⟩

theorem withSlave {slaveId : String} {x z : Slave}
    (hx : s.framework.slaves.lookup slaveId = some x)
    (hsame : z.isCommandExecutor = x.isCommandExecutor) :
    Undisturbed X s (s.withSlave slaveId z) := by
  refine of_framework (fun _ => rfl) fun k hc => ?_
  simp only [State.runsCustom, Framework.slaves_setSlave] at hc ⊢
  by_cases hk : k = slaveId
  · subst hk
    simpa [hx, hsame] using hc
  · simpa [AList.lookup_insert_ne hk] using hc

theorem delete {d : DictRef} {k : String} (hd : d = .tasks → k ∈ X) :
    Undisturbed X s { s with deleteElements := s.deleteElements ++ [⟨d, k⟩] } := by
  refine ⟨fun _ _ => rfl, fun _ _ => rfl, fun k' hk' hp => ?_, fun _ h => h⟩
  obtain hp | hp := List.mem_append.mp hp
  · exact hp
  · obtain ⟨rfl, rfl⟩ : DictRef.tasks = d ∧ k' = k := by simpa using hp
    exact absurd (hd rfl) hk'

end Undisturbed

theorem Moved.isCommandExecutor {x z : Slave} {d : String → ℚ} (h : Moved x z d) :
    z.isCommandExecutor = x.isCommandExecutor := by rw [h.rest]

namespace Undisturbed

variable {X : Set String} {s : State}

theorem creditSlave (env : Env) (slaveId : String) (t : TaskInfo) :
    Undisturbed X s ((creditSlave env slaveId t).after s) := by
  refine Triple.after (P := (· = s)) ?_ rfl
  have hlog : ∀ s', Undisturbed X s' (s'.log (.credited slaveId t.taskId (t.resources.getD []))) :=
    fun s' => log fun _ _ _ => rfl
  refine (creditSlave_spec env slaveId t s).weaken (fun _ h => h) ?_ ?_
  · rintro - s' ⟨x, x1, hx, hmoved, -, rfl⟩
    exact (withSlave (z := { x1 with taskCount := x.taskCount - 1 }) hx
      hmoved.isCommandExecutor).trans (hlog _)
  · rintro s' (⟨-, rfl⟩ | ⟨x, z, done, hx, -, hmoved, -, rfl⟩)
    · exact hlog s
    · exact (withSlave hx hmoved.isCommandExecutor).trans (hlog _)

theorem releaseCommand (slaveId taskId : String) (x : Slave) :
    EStateM.Keeps (Undisturbed X) (releaseCommand slaveId taskId x) := by
  have : IsPreorder State (Undisturbed X) := { refl := refl X, trans := fun _ _ _ => trans }
  exact .bind (.orRaise _ _) fun _ => .bind (.orRaise _ _) fun _ =>
    .bind (.modify fun _ => modifySlave fun _ h => h) fun _ =>
    .ite (.modify fun _ => delete (by simp)) (.pure _)

end Undisturbed

/-! ## Credits that are due keep the books balanced -/

theorem deleteElements_creditSlave (env : Env) (slaveId : String) (t : TaskInfo) (s : State) :
    ((creditSlave env slaveId t).after s).deleteElements = s.deleteElements := by
  refine Triple.after (P := (· = s)) (E := fun s' => s'.deleteElements = s.deleteElements) ?_ rfl
  refine (creditSlave_spec env slaveId t s).weaken (fun _ h => h) ?_ ?_
  · rintro - s' ⟨_, _, _, _, _, rfl⟩; rfl
  · rintro s' (⟨_, rfl⟩ | ⟨_, _, _, _, _, _, _, rfl⟩) <;> rfl

theorem creditSlave_returns {env : Env} {slaveId : String} {t : TaskInfo} {s : State} {x : Slave}
    (hx : s.framework.slaves.lookup slaveId = some x)
    (hadj : Adjustable env.portAdd x (t.resources.getD [])) :
    Triple (· = s) (creditSlave env slaveId t) (fun _ _ => True) (fun _ => False) := by
  refine (creditSlave_spec env slaveId t s).weaken (fun _ h => h) (fun _ _ _ => trivial) ?_
  rintro s' (⟨hnone, -⟩ | ⟨y, z, done, hy, -, -, hnot, -⟩)
  · simp [hx] at hnone
  · cases hx.symm.trans hy
    exact hnot hadj

namespace Booked

variable {env : Env} {s : State}

theorem due (h : Booked ∅ s) {k slaveId : String} {r : TaskRecord} {x : Slave}
    (hr : s.framework.tasks.lookup k = some r) (hx : s.framework.slaves.lookup slaveId = some x)
    (hdue : Due s k slaveId) :
    (ledger slaveId s.effects).Outstanding (r.taskInfo.taskId, r.taskInfo.resources.getD []) ∧
      ∀ q ∈ r.taskInfo.resources.getD [], q.Fits x := by
  obtain ⟨⟨on, rs⟩, hc, rfl⟩ := Option.map_eq_some_iff.mp hdue.charged
  have hcharged : Charged s k r on rs := ⟨hr, hc⟩
  have hout := h.outstanding hcharged (Set.notMem_empty k) hdue.pending
  have hfits := h.filed.fits hcharged hx
  rw [h.filed.bill hcharged] at hout hfits
  exact ⟨(h.filed.keyed hr).symm ▸ hout, hfits⟩

theorem killTask (h : Booked ∅ s) (entry : Entry) (taskId : String)
    (hdue : s.tracking = .active → KillDue s taskId) :
    Triple (· = s) (killTask env entry taskId) (fun _ => Booked ∅) (Booked ∅) := by
  refine killTask_spec (fun _ _ hb h => h.sameBooks hb) h ?_
  intro task k x s1 hactive htask hk hx hcustom hkilled
  have hcus : s.runsCustom k := by simp [State.runsCustom, hx, hcustom]
  obtain ⟨hout, -⟩ := h.due htask hx (hdue hactive task k htask hk hcus)
  have hcredit := (h.sameBooks hkilled.books).creditSlave env k task.taskInfo (h.nonneg htask)
    ⟨x, by rw [hkilled.slaves]; exact hx⟩ (by rw [hkilled.books.ledgers]; exact hout)
  -- the credited task was queued for deletion before
  refine hcredit.settle ?_
  rw [h.filed.keyed htask, deleteElements_creditSlave]
  exact hkilled.pending

/-- Releasing a task whose credit is due: the books balance and other tasks are not
    disturbed. -/
theorem releaseTask (h : Booked ∅ s) {k slaveId : String} {r : TaskRecord} {x : Slave}
    (hr : s.framework.tasks.lookup k = some r) (hx : s.framework.slaves.lookup slaveId = some x)
    (hdue : x.isCommandExecutor = false →
      Due s k slaveId ∧ PortsOk env.portAdd x.ports (r.taskInfo.resources.getD [])) :
    Triple (· = s) (releaseTask env slaveId k x r.taskInfo)
      (fun _ s' => Booked ∅ s' ∧ Undisturbed {k} s s') (Booked ∅) := by
  refine .bind (R := fun _ s1 => Booked {k} s1 ∧ Undisturbed {k} s s1) ?_ fun _ => ?_
  · refine .ite (fun _ => ?_) fun hx' => ?_
    · -- a command executor: the accounts are left alone
      refine Triple.weaken (Triple.of_after (E := fun s' => Booked ∅ s' ∧ Undisturbed {k} s s') ?_)
        (fun _ hs => hs) (fun _ s' hs => ⟨hs.1.mono (Set.empty_subset _), hs.2⟩) fun _ hs => hs.1
      rintro _ rfl
      exact ⟨h.sameBooks ((Mutely.releaseCommand _ _ _).silently.sameBooks _),
        Undisturbed.releaseCommand _ _ _ _⟩
    · obtain ⟨hd, hports⟩ := hdue (by simpa using hx')
      obtain ⟨hout, hfits⟩ := h.due hr hx hd
      have hcredit := h.creditSlave env slaveId r.taskInfo (h.nonneg hr) ⟨x, hx⟩ hout
      rw [h.filed.keyed hr] at hcredit
      refine .bind (R := fun _ s1 => Booked {k} s1 ∧ Undisturbed {k} s s1) ?_ fun _ => ?_
      · refine ((creditSlave_returns hx ⟨hfits, hports⟩).and
          (Triple.of_after (E := fun s1 => Booked {k} s1 ∧ Undisturbed {k} s s1) ?_)).weaken
          (fun _ hs => hs) (fun _ _ hs => hs.2) fun _ hs => hs.1.elim
        rintro _ rfl
        exact ⟨by simpa using hcredit, Undisturbed.creditSlave _ _ _⟩
      · refine .get_bind fun s1 hs1 => .ite (fun _ => .modify ?_) fun _ => .pure ?_
        · rintro _ rfl
          exact ⟨hs1.1.sameBooks (Silent.emit _ .setOfferEvent rfl).sameBooks,
            hs1.2.trans (.log fun _ _ _ => rfl)⟩
        · rintro _ rfl; exact hs1
  · refine .get_bind fun s1 hs1 => ?_
    refine .bind (R := fun _ s2 => Booked {k} s2 ∧ Undisturbed {k} s s2) (.modify ?_) fun _ =>
      .modify ?_
    · rintro _ rfl
      exact ⟨hs1.1.sameBooks (Silent.modifyTask _ k _ fun _ => by rfl).sameBooks,
        hs1.2.trans (.modifyTask fun _ => rfl)⟩
    · rintro s2 ⟨hb, hu⟩
      -- now the task is queued for deletion
      refine ⟨settle (X := ∅) (k := k) ?_ (by simp), hu.trans (.delete fun _ => rfl)⟩
      simpa using hb.sameBooks (Silent.delete s2 .tasks k).sameBooks

/-- A status update whose credit is due. If it releases its task, then only that task is
    disturbed, and otherwise none is. -/
theorem handleStatusUpdate (h : Booked ∅ s) {u : StatusUpdate} (hdue : ReleaseDue s u)
    (hports : PortsReturn env s u) :
    Triple (· = s) (handleStatusUpdate env u)
      (fun _ s' => Booked ∅ s' ∧ Undisturbed {k | u.state.releases ∧ k = u.taskId} s s')
      (Booked ∅) := by
  have hundist : ∀ {X s1}, Updated u s s1 → Undisturbed X s s1 := fun {X s1} hu => by
    refine ⟨fun k _ => ?_, fun k _ => hu.books.charges k, fun k _ hp => hu.pending ▸ hp,
      fun k hc => ?_⟩
    · rw [hu.framework, Framework.lookup_modifyTask]
      split
      · rename_i hk; subst hk
        cases s.framework.tasks.lookup u.taskId <;> rfl
      · rfl
    · simpa only [State.runsCustom, hu.slaves] using hc
  refine handleStatusUpdate_spec (fun s1 hu => ⟨h.sameBooks hu.books, hundist hu⟩)
    (fun s1 hu => h.sameBooks hu.books) ?_
  intro task k x s1 ⟨hrel, htask, hk, hx⟩ hu
  have hrel' : {k | u.state.releases ∧ k = u.taskId} = {u.taskId} := by simp [hrel]
  have hx1 : s1.framework.slaves.lookup k = some x := by rw [hu.slaves]; exact hx
  have htask1 : s1.framework.tasks.lookup u.taskId = some (recordState u s.clock task) := by
    rw [hu.framework, Framework.lookup_modifyTask, if_pos rfl, htask, Option.map_some]
  have hdue1 : ReleaseDue s1 u :=
    (hundist (X := ∅) hu).releaseDue (Set.notMem_empty _) hdue
  have hrelease := (h.sameBooks hu.books).releaseTask htask1 hx1 fun hcustom =>
    ⟨hdue1 hrel _ k htask1 hk (by simp [State.runsCustom, hx1, hcustom]),
      hports hrel task k x htask hk hx hcustom⟩
  refine hrelease.weaken (fun _ hs => hs) (fun _ s2 hs => ⟨hs.1, ?_⟩) fun _ hs => hs
  rw [hrel']
  exact (hundist hu).trans hs.2

theorem handleUpdates (us : List StatusUpdate)
    (honce : us.Pairwise fun a b => a.state.releases → b.state.releases → a.taskId ≠ b.taskId) :
    Triple (fun s => Booked ∅ s ∧ (∀ u ∈ us, ReleaseDue s u) ∧ AllPortsReturn env s us)
      (handleUpdates env us) (fun _ => Booked ∅) (Booked ∅) := by
  induction us with
  | nil => exact .pure fun _ hs => hs.1
  | cons u us ih =>
    obtain ⟨hu, hus⟩ := List.pairwise_cons.mp honce
    refine .bind (R := fun _ s => Booked ∅ s ∧ (∀ u ∈ us, ReleaseDue s u) ∧ AllPortsReturn env s us)
      ?_ fun _ => ih hus
    rintro s ⟨hs, hdue, hports, hrest⟩
    have hleft : Triple (· = s) (Urb.handleStatusUpdate env u)
        (fun _ s' => AllPortsReturn env s' us) (fun s' => AllPortsReturn env s' us) :=
      .of_after (by rintro _ rfl; exact hrest)
    refine ((hs.handleStatusUpdate (hdue u (by simp)) hports).and hleft).weaken (fun _ h => h) ?_
      (fun _ h => h.1) s rfl
    rintro - s' ⟨⟨hb, hundist⟩, hrest'⟩
    refine ⟨hb, fun u' hu' hrel' => ?_, hrest'⟩
    refine hundist.releaseDue ?_ (hdue u' (by simp [hu'])) hrel'
    rintro ⟨hrel, heq⟩
    exact hu u' hu' hrel hrel' heq.symm

end Booked

/-! ## Re-registration -/

/-- The task is stored as reported and charged on the slave. -/
structure ReportedOn (s : State) (t : TaskInfo) (slaveId : String) : Prop where
  info : (s.framework.tasks.lookup t.taskId).map (·.taskInfo) = some t
  charged : (chargedOn t.taskId s.effects).map (·.1) = some slaveId

theorem Undisturbed.reportedOn {X : Set String} {s s' : State} (h : Undisturbed X s s')
    {t : TaskInfo} {slaveId : String} (ht : t.taskId ∉ X) (hr : ReportedOn s t slaveId) :
    ReportedOn s' t slaveId :=
  ⟨(h.infos _ ht).trans hr.info, by rw [h.charges _ ht]; exact hr.charged⟩

theorem Undisturbed.storeTask (s : State) (r : TaskRecord) :
    Undisturbed {r.taskInfo.taskId} s ((storeTask r.taskInfo.taskId r).after s) := by
  refine ⟨fun k hk => ?_, fun k hk => ?_, fun _ _ h => h, fun _ h => h⟩
  · change ((s.framework.tasks.insert r.taskInfo.taskId r).lookup k).map _ = _
    rw [AList.lookup_insert_ne hk]
  · refine (chargedOn_snoc k s.effects (.stored r.taskInfo.taskId)).trans ?_
    have hne : r.taskInfo.taskId ≠ k := fun he => hk he.symm
    simp [Effect.charge, hne]

theorem debitSlave_undisturbed (env : Env) (slaveId : String) (t : TaskInfo) (s : State) :
    Triple (· = s) (debitSlave env slaveId t)
      (fun _ s' => Undisturbed {t.taskId} s s' ∧ s'.deleteElements = s.deleteElements ∧
        s'.framework.tasks = s.framework.tasks ∧
        (chargedOn t.taskId s'.effects).map (·.1) = some slaveId) (fun _ => True) := by
  refine (debitSlave_spec env slaveId t s).weaken (fun _ h => h) ?_ fun _ _ => trivial
  rintro - s' ⟨x, x1, hx, hmoved, -, rfl⟩
  refine ⟨?_, rfl, rfl, by simp [Effect.charge]⟩
  refine (Undisturbed.withSlave (z := { x1 with taskCount := x.taskCount + 1 }) hx
    hmoved.isCommandExecutor).trans (.log fun k hk c => ?_)
  have hne : t.taskId ≠ k := fun he => hk he.symm
  simp [Effect.charge, hne]

namespace Booked

variable {env : Env} {s : State}

theorem reregisterTask (h : Booked ∅ s) (slaveId jobId channel : String) (t : TaskInfo)
    (ht : NonNeg (t.resources.getD [])) :
    Triple (· = s) (reregisterTask env slaveId jobId channel t)
      (fun _ s' => Booked ∅ s' ∧ Undisturbed {t.taskId} s s' ∧
        s'.deleteElements = s.deleteElements ∧ ReportedOn s' t slaveId) (Booked ∅) := by
  have hexec : ∀ x, (rebuildExecutor channel t x).account = x.account ∧
      (rebuildExecutor channel t x).channel = x.channel := fun x => by
    unfold rebuildExecutor; split <;> exact ⟨rfl, rfl⟩
  refine .bind (R := fun _ s1 => Booked ∅ s1 ∧ Undisturbed {t.taskId} s s1 ∧
    s1.deleteElements = s.deleteElements) (.modify ?_) fun _ => ?_
  · rintro _ rfl
    refine ⟨h.sameBooks (Silent.modifySlave _ _ _ hexec).sameBooks,
      .modifySlave fun x hx => ?_, rfl⟩
    unfold rebuildExecutor at hx
    split at hx
    · exact hx
    · cases hx
  refine .bind (R := fun _ s1 => Booked ∅ s1 ∧ Undisturbed {t.taskId} s s1 ∧
    s1.deleteElements = s.deleteElements ∧ Holds t s1 ∧
    (s1.framework.tasks.lookup t.taskId).map (·.taskInfo) = some t) ?_ fun _ => ?_
  · rintro s1 ⟨hb, hu, hd⟩
    exact ⟨hb.storeTask (rebuiltRecord jobId t) ht,
      hu.trans (.storeTask s1 (rebuiltRecord jobId t)), hd,
      holds_storeTask (rebuiltRecord jobId t) s1,
      by simp [rebuiltRecord]⟩
  · rintro s1 ⟨hb, hu, hd, hholds, hinfo⟩
    refine ((debitSlave_undisturbed env slaveId t s1).and
      (Triple.of_after (E := Booked ∅) ?_)).weaken (fun _ hs => hs) ?_ (fun _ hs => hs.2) s1 rfl
    · rintro _ rfl; exact hb.debitSlave env slaveId t hholds
    · rintro - s2 ⟨⟨hu2, hd2, ht2, hc2⟩, hb2⟩
      exact ⟨hb2, hu.trans hu2, hd2.trans hd, by rw [ht2]; exact hinfo, hc2⟩

theorem reregisterTasks (slaveId jobId channel : String) (ts : List TaskInfo)
    (hts : ∀ t ∈ ts, NonNeg (t.resources.getD [])) (h : Booked ∅ s) :
    Triple (· = s) (reregisterTasks env slaveId jobId channel ts)
      (fun _ s' => Booked ∅ s' ∧ Undisturbed {k | ∃ t ∈ ts, t.taskId = k} s s' ∧
        s'.deleteElements = s.deleteElements ∧
        ∀ t ∈ ts, ∃ t' ∈ ts, t'.taskId = t.taskId ∧ ReportedOn s' t' slaveId) (Booked ∅) := by
  induction ts generalizing s with
  | nil =>
    refine .pure ?_
    rintro _ rfl
    exact ⟨h, .refl _ _, rfl, by simp⟩
  | cons t ts ih =>
    refine .bind (h.reregisterTask slaveId jobId channel t (hts t (by simp))) fun _ => ?_
    rintro s1 ⟨hb1, hu1, hd1, hr1⟩
    refine (ih (fun t' ht' => hts t' (by simp [ht'])) hb1).weaken (fun _ hs => hs) ?_
      (fun _ hs => hs) s1 rfl
    rintro - s2 ⟨hb2, hu2, hd2, hr2⟩
    refine ⟨hb2, ?_, hd2.trans hd1, fun t' ht' => ?_⟩
    · refine (hu1.mono ?_).trans (hu2.mono ?_)
      · rintro _ rfl; exact ⟨t, by simp, rfl⟩
      · rintro k ⟨t', ht', rfl⟩; exact ⟨t', by simp [ht'], rfl⟩
    · -- the last task with an id is the one that counts
      obtain ⟨t'', ht'', heq, hr''⟩ | hnone : (∃ t'' ∈ ts, t''.taskId = t'.taskId ∧
          ReportedOn s2 t'' slaveId) ∨ ∀ t'' ∈ ts, t''.taskId ≠ t'.taskId := by
        by_cases hex : ∃ t'' ∈ ts, t''.taskId = t'.taskId
        · obtain ⟨t'', ht'', heq⟩ := hex
          obtain ⟨t3, ht3, heq3, hr3⟩ := hr2 t'' ht''
          exact Or.inl ⟨t3, ht3, heq3.trans heq, hr3⟩
        · exact Or.inr fun t'' ht'' heq => hex ⟨t'', ht'', heq⟩
      · exact ⟨t'', by simp [ht''], heq, hr''⟩
      · obtain rfl | ht' := List.mem_cons.mp ht'
        · refine ⟨t', by simp, rfl, hu2.reportedOn ?_ hr1⟩
          rintro ⟨t'', ht'', heq⟩
          exact hnone t'' ht'' heq
        · exact absurd rfl (hnone t' ht')

theorem replay_due {m : ReregisterExecutorMessage} {slaveId : String} {s s' : State}
    (h : ReplayDue env s m slaveId)
    (hu : Undisturbed {k | ∃ t ∈ m.tasks, t.taskId = k} s s')
    (hd : s'.deleteElements = s.deleteElements)
    (hr : ∀ t ∈ m.tasks, ∃ t' ∈ m.tasks, t'.taskId = t.taskId ∧ ReportedOn s' t' slaveId)
    {u : StatusUpdate} (hmem : u ∈ m.updates) : ReleaseDue s' u := by
  by_cases hex : ∃ t ∈ m.tasks, t.taskId = u.taskId
  · obtain ⟨t, ht, heq⟩ := hex
    obtain ⟨t', ht', heq', hrep⟩ := hr t ht
    replace heq' := heq'.trans heq
    intro hrel task k htask hk hc
    obtain ⟨hp, hslave⟩ := h.reported u hmem hrel t' ht' heq'
    have hinfo := hrep.info
    rw [heq', htask, Option.map_some, Option.some.injEq] at hinfo
    rw [hinfo] at hk
    obtain rfl := hslave k hk (hu.custom k hc)
    exact ⟨by rw [hd]; exact hp, heq' ▸ hrep.charged⟩
  · have hnone : ∀ t ∈ m.tasks, t.taskId ≠ u.taskId := fun t ht heq => hex ⟨t, ht, heq⟩
    exact hu.releaseDue hex (h.known u hmem hnone)

theorem reregisterExecutor (h : Booked ∅ s) (m : ReregisterExecutorMessage)
    (hnn : ∀ t ∈ m.tasks, NonNeg (t.resources.getD []))
    (hdue : ∀ k, s.tracking = .active → s.framework.slaveOnChannel m.replyTo = some k →
      ReplayDue env s m k) :
    Triple (· = s) (reregisterExecutor env m) (fun _ => Booked ∅) (Booked ∅) := by
  refine .get_bind fun s' hs' => ?_
  subst hs'
  split
  · exact .pure fun _ hs => hs ▸ h
  rename_i slaveId hslave
  obtain ⟨hactive, hslave⟩ : s'.tracking = .active ∧
      s'.framework.slaveOnChannel m.replyTo = some slaveId := by
    split at hslave
    · exact ⟨‹_›, hslave⟩
    · cases hslave
  have hreplay := hdue slaveId hactive hslave
  -- setting the channel of the executor disturbs nothing
  let s0 := (modifyFramework
    (·.modifySlave slaveId ({ · with executorChannel := some m.channel }))).after s'
  refine .bind (R := fun _ s1 => s1 = s0 ∧ Booked ∅ s1 ∧ Undisturbed ∅ s' s1 ∧
    s1.deleteElements = s'.deleteElements) (.modify ?_) fun _ => ?_
  · rintro _ rfl
    exact ⟨rfl, h.sameBooks (Silent.modifySlave _ _ _ fun _ => ⟨by rfl, by rfl⟩).sameBooks,
      .modifySlave fun _ hx => hx, rfl⟩
  split
  · exact .pure fun _ hs => hs.2.1
  rename_i jobId hjob
  refine .bind (R := fun _ s2 => Booked ∅ s2 ∧
    (∀ u ∈ sortedUpdates m.updates, ReleaseDue s2 u) ∧
    AllPortsReturn env s2 (sortedUpdates m.updates)) ?_ fun _ => ?_
  · rintro s1 ⟨rfl, hb1, hu1, hd1⟩
    have hrejoined := Triple.of_after (P := (· = s0)) (m := Urb.reregisterTasks env slaveId jobId
      m.channel m.tasks) (E := fun s2 => AllPortsReturn env s2 (sortedUpdates m.updates))
      (by rintro _ rfl; exact hreplay.ports jobId hjob)
    refine ((reregisterTasks slaveId jobId m.channel m.tasks hnn hb1).and hrejoined).weaken
      (fun _ hs => hs) ?_ (fun _ hs => hs.1) _ rfl
    rintro - s2 ⟨⟨hb2, hu2, hd2, hr2⟩, hports⟩
    refine ⟨hb2, fun u hu => ?_, hports⟩
    exact replay_due hreplay ((hu1.mono (Set.empty_subset _)).trans hu2) (hd2.trans hd1) hr2
      ((List.perm_insertionSort _ _).mem_iff.mp hu)
  have honce : (sortedUpdates m.updates).Pairwise fun a b =>
      a.state.releases → b.state.releases → a.taskId ≠ b.taskId :=
    ((List.perm_insertionSort _ _).pairwise_iff fun hab hb ha => (hab ha hb).symm).mpr hreplay.once
  exact .bind (handleUpdates _ honce) fun _ =>
    .bind ((stable env ∅).quiet (Silently.emit _ rfl).quietly) fun _ =>
    (stable env ∅).quiet (Silently.quietly (.modifySlave _ _ fun _ => ⟨by rfl, by rfl⟩))

/-! ## Runs -/

theorem handle (h : Booked ∅ s) (entry : Entry) (r : Request) (hr : r.CreditsDue env s) :
    Booked ∅ ((handle env entry r).after s) := by
  have hkeep : ∀ {r}, Request.endsNoTask r → (∀ t ∈ r.tasks, NonNeg (t.resources.getD [])) →
      Booked ∅ ((Urb.handle env entry r).after s) := fun he hn =>
    ((stable env ∅).handle_of_endsNoTask (by simp [NonNeg]) entry _ he hn).after h
  cases r with
  | killTask taskId => exact (h.killTask entry taskId (hr.kill taskId rfl)).after rfl
  | statusUpdate u =>
    refine Triple.after (P := (· = s)) (.get_bind fun s' hs' => ?_) rfl
    subst hs'
    refine .ite (fun hactive => ?_) fun _ => ?_
    · obtain ⟨hdue, hports⟩ := hr.update u rfl hactive
      exact (h.handleStatusUpdate hdue hports).weaken (fun _ hs => hs)
        (fun _ _ hs => hs.1) fun _ hs => hs
    · exact ((stable env ∅).quiet (Silently.retry _ _).quietly).weaken (fun _ hs => hs ▸ h)
        (fun _ _ hs => hs) fun _ hs => hs
  | reregisterExecutor m =>
    exact (h.reregisterExecutor m hr.nonneg fun k => hr.replay m k rfl).after rfl
  | launchTasks m => exact hkeep rfl hr.nonneg
  | reconcileTasks statuses => exact hkeep rfl hr.nonneg
  | reviveOffers => exact hkeep rfl hr.nonneg
  | registerExecutorRunner m => exact hkeep rfl hr.nonneg
  | registerExecutor m => exact hkeep rfl hr.nonneg

theorem step (h : Booked ∅ s) (e : Event) (he : CreditsDue env s e) : Booked ∅ (step env s e) :=
  (stable env ∅).step_of_handle h fun entry r hr => h.handle entry r (he.due entry r hr)

end Booked

/-- No slave with a custom executor was credited more than it was debited: each credit has a
    debit of its own, no scalar resource exceeds its configured value, and the task count is
    not negative. -/
structure NoDoubleCredit (s : State) : Prop where
  covered : ∀ k, s.runsCustom k → (ledger k s.effects).Covered
  scalar : ∀ k x, s.framework.slaves.lookup k = some x → x.isCommandExecutor = false →
    ∀ n, x.scalar n ≤ s.framework.config.scalar n
  count : ∀ k x, s.framework.slaves.lookup k = some x → x.isCommandExecutor = false →
    0 ≤ x.taskCount

theorem Booked.noDoubleCredit {s : State} (h : Booked ∅ s) : NoDoubleCredit s where
  covered k _ := h.covered k
  scalar k x hx _ n := by
    have hbills : ∀ b ∈ (ledger k s.effects).charges, 0 ≤ amountOf b.2 n := fun b hb =>
      (h.charges k b hb).amountOf_nonneg n
    have htotal := (h.covered k).total_nonneg hbills
    have := h.scalar hx n
    linarith
  count k x hx _ := by
    have htotal := (h.covered k).total_nonneg (w := fun _ => (1 : ℤ)) fun _ _ => by decide
    exact htotal.trans (h.count hx)

/-- In every run from a fresh framework whose credits are all due, no slave is credited
    twice for a task. -/
theorem no_double_credit (env : Env) (s : State) (hs : Fresh s) (events : List Event)
    (hdue : Run.Meets (step env) (CreditsDue env) s events) :
    NoDoubleCredit (run env s events) :=
  (Run.invariant (fun _ e h he => h.step e he) (Booked.of_fresh hs) hdue).noDoubleCredit

namespace Sample

theorem exact_config {s : State} (hs : s.framework.config = config) (n : String) :
    ExactAmount (s.framework.config.scalar n) := by
  rw [hs]
  unfold FrameworkConfig.scalar Slave.scalar
  split
  · decide +kernel
  · split
    · decide +kernel
    · split
      · decide +kernel
      · split
        · decide +kernel
        · show ExactAmount 0
          decide +kernel

theorem launched_due : Run.Meets (step env) (CreditsDue env) start launched := by
  refine ⟨⟨?_, exact_config rfl, by decide +kernel⟩,
    ⟨?_, exact_config (by decide +kernel), by decide +kernel⟩, trivial⟩
  · rintro _ _ ⟨⟩
    exact .of_endsNoTask rfl (by decide +kernel)
  · rintro _ _ ⟨⟩
    exact .of_endsNoTask rfl (by decide +kernel)

theorem finished_due :
    CreditsDue env (run env start launched) (.queued (.statusUpdate finished)) := by
  have hinfo : ∀ r, (run env start launched).framework.tasks.lookup "t" = some r →
      r.taskInfo = task "t" := fun r hr => by
    have h : ((run env start launched).framework.tasks.lookup "t").map (·.taskInfo) =
        some (task "t") := by decide +kernel
    rw [hr] at h
    exact Option.some.inj h
  refine ⟨?_, exact_config (by decide +kernel), by decide +kernel⟩
  rintro _ _ ⟨⟩
  refine ⟨by decide +kernel, fun _ h => (nomatch h), ?_, fun _ _ h => (nomatch h)⟩
  rintro _ ⟨⟩ -
  refine ⟨?_, ?_⟩
  · rintro - r k hr ⟨⟩ -
    exact ⟨by decide +kernel, by decide +kernel⟩
  · rintro - r k x hr ⟨⟩ - -
    rw [hinfo r hr]
    exact ⟨x.ports, rfl, trivial⟩

end Sample

/-- The task finishes and its CPU is given back, once. -/
theorem no_double_credit_finished : NoDoubleCredit
    (run Sample.env Sample.start (Sample.launched ++ [.queued (.statusUpdate Sample.finished)])) :=
  no_double_credit Sample.env Sample.start ⟨rfl, rfl, rfl⟩ _
    (Run.meets_append.mpr ⟨Sample.launched_due, Sample.finished_due, trivial⟩)

/-- The record of a task killed over HTTP stays in `task_dict`. Killing the task again
    credits the slave again: it has five CPUs out of four, and less than no task. -/
theorem http_kill_twice :
    let s := run Sample.env Sample.start
      (Sample.launched ++ [.http (.kill "t"), .http (.kill "t")])
    (s.framework.slaves.lookup Sample.slaveId).map (fun x => (x.cpus, x.taskCount)) =
      some (5, -1) ∧
    s.framework.config.cpus = 4 ∧ ¬NoDoubleCredit s := by
  refine ⟨by decide +kernel, by decide +kernel, fun h => ?_⟩
  have hcount : ¬0 ≤ (-1 : ℤ) := by decide
  obtain ⟨x, hx, hval⟩ := Option.map_eq_some_iff.mp (show
    ((run Sample.env Sample.start (Sample.launched ++ [.http (.kill "t"), .http (.kill "t")])
      ).framework.slaves.lookup Sample.slaveId).map (fun x => (x.isCommandExecutor, x.taskCount)) =
      some (false, -1) by decide +kernel)
  obtain ⟨hcustom, hneg⟩ := Prod.mk.inj hval
  exact hcount (hneg ▸ h.count _ x hx hcustom)

/-- Whatever happens, records are filed under the ids of their tasks, and what was charged for a
    task is what its record says. -/
theorem records_filed (env : Env) (s : State) (hs : Fresh s) (events : List Event) :
    Filed (run env s events) := (Filed.of_fresh hs).run env events

theorem records_filed_launched : Filed (run Sample.env Sample.start Sample.launched) :=
  records_filed _ _ ⟨rfl, rfl, rfl⟩ _

end Urb
