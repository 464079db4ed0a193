import Urb.ForStd.Ledger
import Urb.Spec.Frame
import Urb.Spec.Resources

/-!
# The books of a framework

The log of effects records when a task record was stored and when a task was
debited or credited on a slave. `ledger` reads from it what a slave was charged
since it registered, `chargedOn` on which slave the present record of a task was
debited. Quiet assignments change neither (`SameBooks`), and the other assignments
change them in the ways listed at the end of this file.
-/

namespace Urb

/-- The task that a slave is charged for, and the resources it is charged. -/
abbrev Bill := String × List Resource

/-- What an effect does to the ledger of a slave. -/
def Effect.book (slaveId : String) (l : Ledger Bill) : Effect → Ledger Bill
  | .initialized s => if s = slaveId then .empty else l
  | .debited s task rs => if s = slaveId then l.charge (task, rs) else l
  | .credited s task rs => if s = slaveId then l.refund (task, rs) else l
  | _ => l

/-- The ledger of a slave since it registered. -/
def ledger (slaveId : String) (log : List Effect) : Ledger Bill :=
  log.foldl (fun l e => e.book slaveId l) .empty

/-- What an effect does to the charge of a task. -/
def Effect.charge (taskId : String) (c : Option Bill) : Effect → Option Bill
  | .stored task => if task = taskId then none else c
  | .debited s task rs => if task = taskId then some (s, rs) else c
  | .initialized s => c.filter (·.1 ≠ s)
  | _ => c

/-- The slave on which the present record of a task was debited, and what was debited. The
    charge ends when the record is replaced or the slave registers anew. -/
def chargedOn (taskId : String) (log : List Effect) : Option Bill :=
  log.foldl (fun c e => e.charge taskId c) none

section Log

variable (slaveId taskId : String) (log : List Effect) (e : Effect)

@[simp] theorem ledger_nil : ledger slaveId [] = .empty := rfl

@[simp] theorem chargedOn_nil : chargedOn taskId [] = none := rfl

@[simp] theorem ledger_snoc :
    ledger slaveId (log ++ [e]) = e.book slaveId (ledger slaveId log) := by
  simp [ledger]

@[simp] theorem chargedOn_snoc :
    chargedOn taskId (log ++ [e]) = e.charge taskId (chargedOn taskId log) := by
  simp [chargedOn]

variable {e}

theorem Effect.book_of_not_booked (he : e.booked = false) (l : Ledger Bill) :
    e.book slaveId l = l := by
  cases e <;> first | rfl | simp [Effect.booked] at he

theorem Effect.charge_of_not_booked (he : e.booked = false) (c : Option Bill) :
    e.charge taskId c = c := by
  cases e <;> first | rfl | simp [Effect.booked] at he

end Log

/-! ## Assignments that leave the books alone -/

/-- The accounts, the bills and the books of two states are the same; deletions may have
    been queued in between. -/
structure SameBooks (s s' : State) : Prop where
  bills : ∀ k, (s'.framework.tasks.lookup k).map (·.bill) =
    (s.framework.tasks.lookup k).map (·.bill)
  accounts : ∀ k,
    (s'.framework.slaves.lookup k).map (·.account) = (s.framework.slaves.lookup k).map (·.account)
  config : s'.framework.config = s.framework.config
  ledgers : ∀ k, ledger k s'.effects = ledger k s.effects
  charges : ∀ k, chargedOn k s'.effects = chargedOn k s.effects
  pending : s.deleteElements <+: s'.deleteElements

namespace SameBooks

theorem refl (s : State) : SameBooks s s :=
  ⟨fun _ => rfl, fun _ => rfl, rfl, fun _ => rfl, fun _ => rfl, List.prefix_refl _⟩

theorem trans {s1 s2 s3 : State} (h : SameBooks s1 s2) (h' : SameBooks s2 s3) :
    SameBooks s1 s3 where
  bills k := (h'.bills k).trans (h.bills k)
  accounts k := (h'.accounts k).trans (h.accounts k)
  config := h'.config.trans h.config
  ledgers k := (h'.ledgers k).trans (h.ledgers k)
  charges k := (h'.charges k).trans (h.charges k)
  pending := h.pending.trans h'.pending

theorem of_framework {s : State} {f : Framework}
    (ht : ∀ k, (f.tasks.lookup k).map (·.bill) = (s.framework.tasks.lookup k).map (·.bill))
    (hs : ∀ k, (f.slaves.lookup k).map (·.account) = (s.framework.slaves.lookup k).map (·.account))
    (hc : f.config = s.framework.config) : SameBooks s { s with framework := f } :=
  ⟨ht, hs, hc, fun _ => rfl, fun _ => rfl, List.prefix_refl _⟩

theorem of_clock (s : State) (now : ℚ) : SameBooks s { s with clock := now } :=
  ⟨fun _ => rfl, fun _ => rfl, rfl, fun _ => rfl, fun _ => rfl, List.prefix_refl _⟩

end SameBooks

theorem account_resetOffers (f : Framework) (k : String) :
    ((resetOffers f).slaves.lookup k).map (·.account) = (f.slaves.lookup k).map (·.account) := by
  unfold resetOffers Framework.slaves
  cases f.slaveDict with
  | none => rfl
  | some d => simp [Function.comp_def, Slave.account]

theorem Silent.sameBooks {s s' : State} (h : Silent s s') : SameBooks s s' := by
  cases h with
  | emit e he =>
    exact ⟨fun _ => rfl, fun _ => rfl, rfl,
      fun k => by simp [Effect.book_of_not_booked _ he],
      fun k => by simp [Effect.charge_of_not_booked _ he], List.prefix_refl _⟩
  | modifyTask taskId g hg =>
    refine .of_framework (fun k => ?_) (fun k => by simp) (by simp)
    rw [Framework.lookup_modifyTask]
    split
    · rename_i hk; subst hk
      cases s.framework.tasks.lookup k <;> simp [hg]
    · rfl
  | modifySlave slaveId g hg =>
    refine .of_framework (fun k => by simp) (fun k => ?_) (by simp)
    rw [Framework.lookup_modifySlave]
    split
    · rename_i hk; subst hk
      cases s.framework.slaves.lookup k <;> simp [hg]
    · rfl
  | delete d k =>
    exact ⟨fun _ => rfl, fun _ => rfl, rfl, fun _ => rfl, fun _ => rfl, List.prefix_append _ _⟩
  | retry r =>
    exact ⟨fun _ => rfl, fun _ => rfl, rfl, fun _ => rfl, fun _ => rfl, List.prefix_refl _⟩
  | revive => exact .of_framework (fun _ => rfl) (account_resetOffers _) rfl
  | framework f ht hs ho hc hj =>
    exact .of_framework (fun k => by rw [ht]) (fun k => by rw [hs]) hc

theorem Quiet.sameBooks {s s' : State} (h : Quiet s s') : SameBooks s s' := by
  cases h with
  | silent h => exact h.sameBooks
  | jobs jobIds => exact .of_framework (fun _ => rfl) (fun _ => rfl) rfl

theorem Quietly.sameBooks {α : Type} {m : Handler α} (h : Quietly m) (s : State) :
    SameBooks s (m.after s) :=
  h.of_steps .refl (fun _ _ _ => .trans) (fun _ _ hstep => hstep.sameBooks) s

theorem Silently.sameBooks {α : Type} {m : Handler α} (h : Silently m) (s : State) :
    SameBooks s (m.after s) := h.quietly.sameBooks s

/-! ## What the same account means -/

section Account

variable {x y : Slave} (h : x.account = y.account)

include h

theorem scalar_eq_of_account (name : String) : x.scalar name = y.scalar name := by
  simp only [Slave.account, Prod.mk.injEq] at h
  obtain ⟨h1, h2, h3, h4, _, h6, _⟩ := h
  simp only [Slave.scalar, h1, h2, h3, h4, h6]

theorem hasScalar_eq_of_account (name : String) : x.hasScalar name = y.hasScalar name := by
  simp only [Slave.account, Prod.mk.injEq] at h
  obtain ⟨_, _, _, h4, _, h6, _⟩ := h
  simp only [Slave.hasScalar, h4, h6]

theorem taskCount_eq_of_account : x.taskCount = y.taskCount := by
  simp only [Slave.account, Prod.mk.injEq] at h
  exact h.2.2.2.2.2.2

end Account

namespace SameBooks

variable {s s' : State} (h : SameBooks s s')

include h

theorem slave {k : String} {x : Slave} (hx : s'.framework.slaves.lookup k = some x) :
    ∃ y, s.framework.slaves.lookup k = some y ∧ x.account = y.account := by
  have := h.accounts k
  rw [hx] at this
  obtain ⟨y, hy, hacc⟩ := Option.map_eq_some_iff.mp this.symm
  exact ⟨y, hy, hacc.symm⟩

theorem task {k : String} {r : TaskRecord} (hr : s'.framework.tasks.lookup k = some r) :
    ∃ r', s.framework.tasks.lookup k = some r' ∧ r.bill = r'.bill := by
  have := h.bills k
  rw [hr] at this
  obtain ⟨r', hr', hbill⟩ := Option.map_eq_some_iff.mp this.symm
  exact ⟨r', hr', hbill.symm⟩

theorem not_pending {de : DeleteElement} (hde : de ∉ s'.deleteElements) :
    de ∉ s.deleteElements := fun hmem => hde (h.pending.subset hmem)

end SameBooks

/-! ## Debits and credits -/

theorem onSlave_spec {α : Type} {slaveId : String} {m : SlaveM α} {s : State} {slave : Slave}
    {Q : α → Slave → Prop} {E : Slave → Prop}
    (hs : s.framework.slaves.lookup slaveId = some slave)
    (hm : EStateM.Triple (· = slave) m Q E) :
    EStateM.Triple (· = s) (onSlave slaveId m)
      (fun a s' => ∃ x, Q a x ∧ s' = { s with framework := s.framework.setSlave slaveId x })
      (fun s' => ∃ x, E x ∧ s' = { s with framework := s.framework.setSlave slaveId x }) := by
  rintro _ rfl
  have := hm slave rfl
  simp only [onSlave, hs]
  cases hr : m slave with
  | ok a x => simp only [hr] at this ⊢; exact ⟨x, this, rfl⟩
  | error e x => simp only [hr] at this ⊢; exact ⟨x, this, rfl⟩

theorem onSlave_missing {α : Type} {slaveId : String} (m : SlaveM α) {s : State}
    (hs : s.framework.slaves.lookup slaveId = none) :
    onSlave slaveId m s = .error (.keyError slaveId) s := by
  simp only [onSlave, hs]

/-- The state in which a slave record was replaced. -/
abbrev State.withSlave (s : State) (slaveId : String) (x : Slave) : State :=
  { s with framework := s.framework.setSlave slaveId x }

/-- The state in which an effect was logged. -/
abbrev State.log (s : State) (e : Effect) : State := { s with effects := s.effects ++ [e] }

/-- What a debit does: the slave is charged and the charge is booked; or it raises with part
    of the resources taken and nothing booked. -/
theorem debitSlave_spec (env : Env) (slaveId : String) (t : TaskInfo) (s : State) :
    EStateM.Triple (· = s) (debitSlave env slaveId t)
      (fun _ s' => ∃ x x1, s.framework.slaves.lookup slaveId = some x ∧
        Moved x x1 (fun n => -amountOf (t.resources.getD []) n) ∧
        Adjustable env.portSubtract x (t.resources.getD []) ∧
        s' = (s.withSlave slaveId { x1 with taskCount := x.taskCount + 1 }).log
          (.debited slaveId t.taskId (t.resources.getD [])))
      (fun s' => s' = s ∨ ∃ x x' done, s.framework.slaves.lookup slaveId = some x ∧
        done <+: t.resources.getD [] ∧ Moved x x' (fun n => -amountOf done n) ∧
        s' = s.withSlave slaveId x') := by
  cases hs : s.framework.slaves.lookup slaveId with
  | none =>
    rintro _ rfl
    simp only [debitSlave, EStateM.bind_apply, onSlave_missing _ hs, true_or]
  | some x =>
    refine .bind ((onSlave_spec hs (debitResources_spec env t x)).weaken
      (fun _ h => h) (fun _ _ h => h) ?_) fun _ => .modify ?_
    · rintro s' ⟨x', ⟨done, hp, hmoved⟩, rfl⟩
      exact Or.inr ⟨x, x', done, rfl, hp, hmoved, rfl⟩
    · rintro s' ⟨x', ⟨⟨x1, hmoved, rfl⟩, hadj⟩, rfl⟩
      exact ⟨x, x1, rfl, hmoved, hadj, rfl⟩

/-- What a credit does. The refund is booked in any case; if the credit raises, part of the
    resources was given back. -/
theorem creditSlave_spec (env : Env) (slaveId : String) (t : TaskInfo) (s : State) :
    EStateM.Triple (· = s) (creditSlave env slaveId t)
      (fun _ s' => ∃ x x1, s.framework.slaves.lookup slaveId = some x ∧
        Moved x x1 (fun n => amountOf (t.resources.getD []) n) ∧
        Adjustable env.portAdd x (t.resources.getD []) ∧
        s' = (s.withSlave slaveId { x1 with taskCount := x.taskCount - 1 }).log
          (.credited slaveId t.taskId (t.resources.getD [])))
      (fun s' =>
        (s.framework.slaves.lookup slaveId = none ∧
          s' = s.log (.credited slaveId t.taskId (t.resources.getD []))) ∨
        ∃ x x' done, s.framework.slaves.lookup slaveId = some x ∧
          done <+: t.resources.getD [] ∧ Moved x x' (fun n => amountOf done n) ∧
          ¬Adjustable env.portAdd x (t.resources.getD []) ∧
          s' = (s.withSlave slaveId x').log
            (.credited slaveId t.taskId (t.resources.getD []))) := by
  refine .bind (R := fun _ s' => s' = s.log (.credited slaveId t.taskId (t.resources.getD [])))
    (.modify fun s' h => by rw [h]) fun _ => ?_
  cases hs : s.framework.slaves.lookup slaveId with
  | none =>
    rintro _ rfl
    simp only [onSlave, hs, true_and, true_or]
  | some x =>
    refine (onSlave_spec (s := s.log (.credited slaveId t.taskId (t.resources.getD []))) hs
      (creditResources_spec env t x)).weaken (fun _ h => h) ?_ ?_
    · rintro - s' ⟨x', ⟨⟨x1, hmoved, rfl⟩, hadj⟩, rfl⟩
      exact ⟨x, x1, rfl, hmoved, hadj, rfl⟩
    · rintro s' ⟨x', ⟨⟨done, hp, hmoved⟩, hadj⟩, rfl⟩
      exact Or.inr ⟨x, x', done, rfl, hp, hmoved, hadj, rfl⟩

section Payment

variable {env : Env} {s : State} {k : String} {x : Slave} {t : TaskInfo}

theorem creditSlave_ok (hx : s.framework.slaves.lookup k = some x)
    (hadj : Adjustable env.portAdd x (t.resources.getD [])) :
    ∃ x1, Moved x x1 (fun n => amountOf (t.resources.getD []) n) ∧
      creditSlave env k t s = .ok () ((s.withSlave k { x1 with taskCount := x.taskCount - 1 }).log
        (.credited k t.taskId (t.resources.getD []))) := by
  have h := creditSlave_spec env k t s s rfl
  cases hrun : creditSlave env k t s with
  | ok a s1 =>
    rw [hrun] at h
    obtain ⟨x', x1, hx', hmoved, -, rfl⟩ := h
    obtain rfl : x' = x := Option.some.inj (hx'.symm.trans hx)
    exact ⟨x1, hmoved, rfl⟩
  | error e s1 =>
    rw [hrun] at h
    rcases h with ⟨hnone, -⟩ | ⟨x', _, _, hx', -, -, hnot, -⟩
    · rw [hx] at hnone; cases hnone
    · obtain rfl : x' = x := Option.some.inj (hx'.symm.trans hx)
      exact (hnot hadj).elim

theorem creditSlave_error (hx : s.framework.slaves.lookup k = some x)
    (hadj : ¬Adjustable env.portAdd x (t.resources.getD [])) :
    ∃ e s1, creditSlave env k t s = .error e s1 ∧
      s1.framework.tasks = s.framework.tasks ∧ s1.deleteElements = s.deleteElements := by
  have h := creditSlave_spec env k t s s rfl
  cases hrun : creditSlave env k t s with
  | ok a s1 =>
    rw [hrun] at h
    obtain ⟨x', x1, hx', -, hadj', -⟩ := h
    obtain rfl : x' = x := Option.some.inj (hx'.symm.trans hx)
    exact (hadj hadj').elim
  | error e s1 =>
    rw [hrun] at h
    rcases h with ⟨-, rfl⟩ | ⟨_, _, _, -, -, -, -, rfl⟩
    · exact ⟨e, _, rfl, rfl, rfl⟩
    · exact ⟨e, _, rfl, rfl, rfl⟩

end Payment

end Urb
