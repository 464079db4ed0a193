import Urb.Spec.Filed

/-!
# The balance of the books

The invariant behind the absence of double credits: what a slave has left of a
scalar resource is at most its configured value less what its ledger says is
charged, it counts at least as many tasks as its ledger has outstanding charges, and
every task that is charged and not about to be deleted has an outstanding charge.

The set in `Booked` holds the tasks that have been credited but are not queued for
deletion yet; between two statements of a handler there is at most one.
-/

namespace Urb

open AList (lookup_insert lookup_insert_ne)
open EStateM (Triple)

/-- The value to which `__initialize_slave_resources` sets a scalar resource. -/
def FrameworkConfig.scalar (c : FrameworkConfig) (name : String) : ℚ :=
  (newSlave c { slaveId := "", channel := "", jobId := "" }).scalar name

theorem scalar_newSlave (c : FrameworkConfig) (m : RegisterExecutorRunnerMessage) (name : String) :
    (newSlave c m).scalar name = c.scalar name := rfl

/-- The books of the framework balance. -/
structure Booked (released : Set String) (s : State) : Prop where
  filed : Filed s
  nonneg : ∀ {k r}, s.framework.tasks.lookup k = some r → NonNeg (r.taskInfo.resources.getD [])
  charges : ∀ k, ∀ b ∈ (ledger k s.effects).charges, NonNeg b.2
  scalar : ∀ {k x}, s.framework.slaves.lookup k = some x → ∀ n,
    x.scalar n ≤ s.framework.config.scalar n -
      (ledger k s.effects).total fun b => amountOf b.2 n
  count : ∀ {k x}, s.framework.slaves.lookup k = some x →
    ((ledger k s.effects).total fun _ => (1 : ℤ)) ≤ x.taskCount
  covered : ∀ k, (ledger k s.effects).Covered
  outstanding : ∀ {k r slaveId rs}, Charged s k r slaveId rs → k ∉ released →
    ⟨.tasks, k⟩ ∉ s.deleteElements → (ledger slaveId s.effects).Outstanding (k, rs)

namespace Booked

variable {s s' : State} {X : Set String}

theorem of_fresh (h : Fresh s) : Booked X s where
  filed := .of_fresh h
  nonneg hr := by simp [h.tasks] at hr
  charges k b hb := by simp [h.effects, Ledger.empty] at hb
  scalar hx := by simp [h.slaves] at hx
  count hx := by simp [h.slaves] at hx
  covered k := by rw [h.effects]; exact Ledger.covered_empty
  outstanding hc := by simpa [h.tasks] using hc.lookup

theorem sameBooks (hb : SameBooks s s') (h : Booked X s) : Booked X s' where
  filed := h.filed.sameBooks hb
  nonneg hr := by
    obtain ⟨r', hr', hbill⟩ := hb.task hr
    have hres := congrArg (·.2.getD []) hbill
    simp only [TaskRecord.bill] at hres
    rw [hres]
    exact h.nonneg hr'
  charges k := by rw [hb.ledgers]; exact h.charges k
  scalar {k x} hx n := by
    obtain ⟨y, hy, hacc⟩ := hb.slave hx
    rw [hb.ledgers, hb.config, scalar_eq_of_account hacc]
    exact h.scalar hy n
  count {k x} hx := by
    obtain ⟨y, hy, hacc⟩ := hb.slave hx
    rw [hb.ledgers, taskCount_eq_of_account hacc]
    exact h.count hy
  covered k := by rw [hb.ledgers]; exact h.covered k
  outstanding hc hX hp := by
    obtain ⟨r', hc', _⟩ := hc.of_sameBooks hb
    rw [hb.ledgers]
    exact h.outstanding hc' hX (hb.not_pending hp)

theorem mono {Y : Set String} (h : Booked X s) (hXY : X ⊆ Y) : Booked Y s :=
  { h with outstanding := fun hc hY => h.outstanding hc fun hX => hY (hXY hX) }

theorem settle {k : String} (h : Booked (insert k X) s)
    (hp : ⟨.tasks, k⟩ ∈ s.deleteElements) : Booked X s :=
  { h with
    outstanding := fun {k' _ _ _} hc hX hp' => by
      refine h.outstanding hc (fun hmem => ?_) hp'
      obtain rfl | hmem := hmem
      · exact hp' hp
      · exact hX hmem }

theorem ledger_storeTask (k taskId : String) (r : TaskRecord) (s : State) :
    ledger k ((Urb.storeTask taskId r).after s).effects = ledger k s.effects :=
  ledger_snoc k s.effects (.stored taskId)

theorem storeTask (h : Booked X s) (r : TaskRecord) (hr : NonNeg (r.taskInfo.resources.getD [])) :
    Booked X ((storeTask r.taskInfo.taskId r).after s) where
  filed := h.filed.storeTask r
  nonneg {k r'} hr' := by
    change (s.framework.tasks.insert r.taskInfo.taskId r).lookup k = some r' at hr'
    by_cases hk : k = r.taskInfo.taskId
    · subst hk
      rw [lookup_insert] at hr'
      exact Option.some.inj hr' ▸ hr
    · rw [lookup_insert_ne hk] at hr'
      exact h.nonneg hr'
  charges k := by rw [ledger_storeTask]; exact h.charges k
  scalar hx n := by rw [ledger_storeTask]; exact h.scalar hx n
  count hx := by rw [ledger_storeTask]; exact h.count hx
  covered k := by rw [ledger_storeTask]; exact h.covered k
  outstanding hc hX hp := by rw [ledger_storeTask]; exact h.outstanding hc.of_storeTask.2 hX hp

/-! ### Changes of one slave -/

theorem holds_nonneg (h : Booked X s) {t : TaskInfo} (ht : Holds t s) :
    NonNeg (t.resources.getD []) := by
  obtain ⟨r, hr, hbill⟩ := Option.map_eq_some_iff.mp ht
  have hres := congrArg (·.2.getD []) hbill
  simp only [TaskRecord.bill] at hres
  exact hres ▸ h.nonneg hr

theorem withSlave (h : Booked X s) {k : String} {x z : Slave}
    (hx : s.framework.slaves.lookup k = some x) (hdef : ∀ n, z.hasScalar n = x.hasScalar n)
    (hscalar : ∀ n, z.scalar n ≤ x.scalar n) (hcount : x.taskCount ≤ z.taskCount) :
    Booked X (s.withSlave k z) where
  filed := h.filed.withSlave hx hdef
  nonneg hr := h.nonneg hr
  charges k := h.charges k
  scalar {k' y} hy n := by
    by_cases hk : k' = k
    · subst hk
      rw [Framework.slaves_setSlave, lookup_insert] at hy
      cases hy
      exact (hscalar n).trans (h.scalar hx n)
    · rw [Framework.slaves_setSlave, lookup_insert_ne hk] at hy
      exact h.scalar hy n
  count {k' y} hy := by
    by_cases hk : k' = k
    · subst hk
      rw [Framework.slaves_setSlave, lookup_insert] at hy
      cases hy
      exact (h.count hx).trans hcount
    · rw [Framework.slaves_setSlave, lookup_insert_ne hk] at hy
      exact h.count hy
  covered k := h.covered k
  outstanding hc := h.outstanding hc.of_withSlave

theorem ledger_debited (k on taskId : String) (rs : List Resource) (log : List Effect) :
    ledger k (log ++ [.debited on taskId rs]) =
      if on = k then (ledger k log).charge (taskId, rs) else ledger k log :=
  ledger_snoc k log _

theorem ledger_credited (k on taskId : String) (rs : List Resource) (log : List Effect) :
    ledger k (log ++ [.credited on taskId rs]) =
      if on = k then (ledger k log).refund (taskId, rs) else ledger k log :=
  ledger_snoc k log _

theorem debited (h : Booked X s) {on : String} {t : TaskInfo} {x z : Slave} (ht : Holds t s)
    (hx : s.framework.slaves.lookup on = some x) (hdef : ∀ n, z.hasScalar n = x.hasScalar n)
    (hscalar : ∀ n, z.scalar n ≤ x.scalar n - amountOf (t.resources.getD []) n)
    (hcount : z.taskCount = x.taskCount + 1) (hfits : ∀ q ∈ t.resources.getD [], q.Fits z) :
    Booked X ((s.withSlave on z).log (.debited on t.taskId (t.resources.getD []))) where
  filed := (h.filed.withSlave hx hdef).debited ht (lookup_insert _) hfits
  nonneg hr := h.nonneg hr
  charges k b hb := by
    rw [ledger_debited] at hb
    split at hb
    · obtain rfl | hb := Multiset.mem_cons.mp hb
      · exact h.holds_nonneg ht
      · exact h.charges k b hb
    · exact h.charges k b hb
  scalar {k y} hy n := by
    rw [ledger_debited]
    by_cases hk : on = k
    · subst hk
      rw [Framework.slaves_setSlave, lookup_insert] at hy
      cases hy
      have h1 := hscalar n
      have h2 := h.scalar hx n
      simp only [if_true, Ledger.total_charge, Framework.setSlave]
      linarith
    · rw [Framework.slaves_setSlave, lookup_insert_ne (Ne.symm hk)] at hy
      simp only [hk, if_false]
      exact h.scalar hy n
  count {k y} hy := by
    rw [ledger_debited]
    by_cases hk : on = k
    · subst hk
      rw [Framework.slaves_setSlave, lookup_insert] at hy
      cases hy
      have h2 := h.count hx
      simp only [if_true, Ledger.total_charge, hcount]
      linarith
    · rw [Framework.slaves_setSlave, lookup_insert_ne (Ne.symm hk)] at hy
      simp only [hk, if_false]
      exact h.count hy
  covered k := by
    rw [ledger_debited]
    split
    · exact (h.covered k).charge _
    · exact h.covered k
  outstanding {k r slaveId rs} hc hX hp := by
    rw [ledger_debited]
    obtain ⟨rfl, rfl, rfl⟩ | ⟨-, hc'⟩ := hc.of_debited
    · simp only [if_true]
      exact (h.covered slaveId).outstanding_charge _
    · have := h.outstanding hc'.of_withSlave hX hp
      split
      · exact this.charge _
      · exact this

theorem credited (h : Booked X s) {on taskId : String} {rs : List Resource} {x z : Slave}
    (hx : s.framework.slaves.lookup on = some x) (hdef : ∀ n, z.hasScalar n = x.hasScalar n)
    (hscalar : ∀ n, z.scalar n ≤ x.scalar n + amountOf rs n)
    (hcount : x.taskCount - 1 ≤ z.taskCount)
    (hout : (ledger on s.effects).Outstanding (taskId, rs)) :
    Booked (insert taskId X) ((s.withSlave on z).log (.credited on taskId rs)) where
  filed := (h.filed.withSlave hx hdef).credited _ _ _
  nonneg hr := h.nonneg hr
  charges k b hb := by
    rw [ledger_credited] at hb
    split at hb
    · exact h.charges k b hb
    · exact h.charges k b hb
  scalar {k y} hy n := by
    rw [ledger_credited]
    by_cases hk : on = k
    · subst hk
      rw [Framework.slaves_setSlave, lookup_insert] at hy
      cases hy
      have h1 := hscalar n
      have h2 := h.scalar hx n
      simp only [if_true, Ledger.total_refund, Framework.setSlave]
      linarith
    · rw [Framework.slaves_setSlave, lookup_insert_ne (Ne.symm hk)] at hy
      simp only [hk, if_false]
      exact h.scalar hy n
  count {k y} hy := by
    rw [ledger_credited]
    by_cases hk : on = k
    · subst hk
      rw [Framework.slaves_setSlave, lookup_insert] at hy
      cases hy
      have h2 := h.count hx
      simp only [if_true, Ledger.total_refund]
      linarith
    · rw [Framework.slaves_setSlave, lookup_insert_ne (Ne.symm hk)] at hy
      simp only [hk, if_false]
      exact h.count hy
  covered k := by
    rw [ledger_credited]
    split
    · rename_i hk; subst hk
      exact (h.covered on).refund hout
    · exact h.covered k
  outstanding {k r slaveId rs'} hc hX hp := by
    rw [ledger_credited]
    have hne : k ≠ taskId := fun he => hX (Or.inl he)
    have := h.outstanding hc.of_credited.of_withSlave (fun hmem => hX (Or.inr hmem)) hp
    split
    · exact this.refund_of_ne fun he => hne (congrArg Prod.fst he)
    · exact this

theorem debitSlave (h : Booked X s) (env : Env) (slaveId : String) (t : TaskInfo)
    (ht : Holds t s) : Booked X ((debitSlave env slaveId t).after s) := by
  have hnn := h.holds_nonneg ht
  refine Triple.after (P := (· = s)) ?_ rfl
  refine (debitSlave_spec env slaveId t s).weaken (fun _ h => h) ?_ ?_
  · rintro - s' ⟨x, x1, hx, hmoved, hadj, rfl⟩
    refine h.debited (z := { x1 with taskCount := x.taskCount + 1 }) ht hx hmoved.hasScalar
      (fun n => ?_) rfl fun q hq => (hmoved.fits_iff q).mpr (hadj.fits q hq)
    exact (hmoved.scalar n).trans_le (by rw [sub_eq_add_neg])
  · rintro s' (rfl | ⟨x, z, done, hx, hp, hmoved, rfl⟩)
    · exact h
    · refine h.withSlave hx hmoved.hasScalar (fun n => ?_) hmoved.taskCount.ge
      have := (hnn.amountOf_prefix hp n).1
      rw [hmoved.scalar]
      linarith

theorem creditSlave (h : Booked X s) (env : Env) (slaveId : String) (t : TaskInfo)
    (hnn : NonNeg (t.resources.getD []))
    (hx : ∃ x, s.framework.slaves.lookup slaveId = some x)
    (hout : (ledger slaveId s.effects).Outstanding (t.taskId, t.resources.getD [])) :
    Booked (insert t.taskId X) ((creditSlave env slaveId t).after s) := by
  refine Triple.after (P := (· = s)) ?_ rfl
  refine (creditSlave_spec env slaveId t s).weaken (fun _ h => h) ?_ ?_
  · rintro - s' ⟨x, x1, hx, hmoved, -, rfl⟩
    exact h.credited (z := { x1 with taskCount := x.taskCount - 1 }) hx hmoved.hasScalar
      (fun n => (hmoved.scalar n).le) le_rfl hout
  · rintro s' (⟨hnone, rfl⟩ | ⟨x, z, done, hx, hp, hmoved, -, rfl⟩)
    · obtain ⟨x, hx⟩ := hx
      simp [hx] at hnone
    · refine h.credited hx hmoved.hasScalar (fun n => ?_) (by rw [hmoved.taskCount]; omega) hout
      have := (hnn.amountOf_prefix hp n).2
      rw [hmoved.scalar]
      linarith

/-! ### The other assignments -/

theorem ledger_addSlave (env : Env) (m : RegisterExecutorRunnerMessage) (k : String) (s : State) :
    ledger k ((Urb.addSlave env m).after s).effects =
      if m.slaveId = k then .empty else ledger k s.effects :=
  ledger_snoc k s.effects (.initialized m.slaveId)

theorem addSlave (h : Booked X s) (env : Env) (m : RegisterExecutorRunnerMessage) :
    Booked X ((addSlave env m).after s) where
  filed := h.filed.addSlave env m
  nonneg hr := h.nonneg hr
  charges k b hb := by
    rw [ledger_addSlave] at hb
    split at hb
    · simp [Ledger.empty] at hb
    · exact h.charges k b hb
  scalar {k x} hx n := by
    change (s.framework.slaves.insert m.slaveId (newSlave s.framework.config m)).lookup k = some x
      at hx
    rw [ledger_addSlave]
    by_cases hk : m.slaveId = k
    · subst hk
      rw [lookup_insert] at hx
      cases hx
      simp only [if_true, Ledger.total_empty, sub_zero, scalar_newSlave]
      exact le_rfl
    · rw [lookup_insert_ne (Ne.symm hk)] at hx
      simp only [hk, if_false]
      exact h.scalar hx n
  count {k x} hx := by
    change (s.framework.slaves.insert m.slaveId (newSlave s.framework.config m)).lookup k = some x
      at hx
    rw [ledger_addSlave]
    by_cases hk : m.slaveId = k
    · subst hk
      rw [lookup_insert] at hx
      cases hx
      simp only [if_true, Ledger.total_empty]
      exact le_rfl
    · rw [lookup_insert_ne (Ne.symm hk)] at hx
      simp only [hk, if_false]
      exact h.count hx
  covered k := by
    rw [ledger_addSlave]
    split
    · exact Ledger.covered_empty
    · exact h.covered k
  outstanding hc hX hp := by
    obtain ⟨hne, hc'⟩ := hc.of_addSlave
    rw [ledger_addSlave]
    simp only [Ne.symm hne, if_false]
    exact h.outstanding hc' hX hp

theorem replaceTaskDict (h : Booked X s) (entry : Entry) (taskId : String)
    (t : Option TaskRecord) : Booked X ((replaceTaskDict entry taskId t).after s) := by
  have hledger : ∀ k, ledger k ((Urb.replaceTaskDict entry taskId t).after s).effects =
      ledger k s.effects := fun k => ledger_snoc k s.effects (.stored taskId)
  exact {
    filed := .replaceTaskDict entry taskId t
    nonneg := fun {k r} hr => by
      change ((∅ : Dict TaskRecord).insert taskId (lostRecord entry taskId)).lookup k = some r at hr
      by_cases hk : k = taskId
      · subst hk
        rw [lookup_insert] at hr
        rw [← Option.some.inj hr]
        cases entry <;> simp [NonNeg, lostRecord]
      · rw [lookup_insert_ne hk] at hr
        simp at hr
    charges := fun k => by rw [hledger]; exact h.charges k
    scalar := fun hx n => by rw [hledger]; exact h.scalar hx n
    count := fun hx => by rw [hledger]; exact h.count hx
    covered := fun k => by rw [hledger]; exact h.covered k
    outstanding := fun hc => (not_charged_replaceTaskDict hc).elim }

theorem postprocessor (h : Booked X s) : Booked X (targetPostprocessor s) where
  filed := h.filed.postprocessor
  nonneg hr := h.nonneg (lookup_tasks_postprocessor hr).2
  charges k := h.charges k
  scalar hx n := by
    rw [targetPostprocessor, config_deleteAll]
    exact h.scalar (lookup_slaves_postprocessor hx) n
  count hx := h.count (lookup_slaves_postprocessor hx)
  covered k := h.covered k
  outstanding hc hX _ :=
    have ⟨hp, hc'⟩ := hc.of_postprocessor
    h.outstanding hc' hX hp

theorem stable (env : Env) (X : Set String) : Stable env NonNeg (Booked X) where
  keyed h := h.filed.keyed
  sameBooks := sameBooks
  store _ r hr h := h.storeTask r hr
  debit _ slaveId t ht h := h.debitSlave env slaveId t ht
  addSlave _ m h := h.addSlave env m
  replaceTaskDict _ entry taskId _ h t := h.replaceTaskDict entry taskId t
  postprocess _ h := h.postprocessor

end Booked

end Urb
