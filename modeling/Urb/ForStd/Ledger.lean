import Mathlib.Algebra.BigOperators.Group.Multiset.Basic
import Mathlib.Algebra.Order.BigOperators.Group.Multiset
import Mathlib.Tactic.Abel

/-!
# Ledgers of charges and refunds

A ledger has two multisets of entries: what was charged and what was refunded.
It is `Covered` when every refund has a charge of its own; an entry is
`Outstanding` when one more refund of it would still be covered. In a covered
ledger the total of any non-negative weight is non-negative.
-/

/-- Charges and refunds of entries of a type. -/
structure Ledger (α : Type*) where
  charges : Multiset α
  refunds : Multiset α

namespace Ledger

variable {α : Type*}

/-- The ledger in which nothing happened. -/
def empty : Ledger α := ⟨0, 0⟩

def charge (l : Ledger α) (a : α) : Ledger α := { l with charges := a ::ₘ l.charges }

def refund (l : Ledger α) (a : α) : Ledger α := { l with refunds := a ::ₘ l.refunds }

/-- What is charged and not refunded, in terms of a weight of the entries. -/
def total {M : Type*} [AddCommGroup M] (w : α → M) (l : Ledger α) : M :=
  (l.charges.map w).sum - (l.refunds.map w).sum

section Total

variable {M : Type*} [AddCommGroup M] (w : α → M) (l : Ledger α) (a : α)

@[simp] theorem total_empty : total w (empty : Ledger α) = 0 := by simp [total, empty]

@[simp] theorem total_charge : total w (l.charge a) = total w l + w a := by
  simp only [total, charge, Multiset.map_cons, Multiset.sum_cons]
  abel

@[simp] theorem total_refund : total w (l.refund a) = total w l - w a := by
  simp only [total, refund, Multiset.map_cons, Multiset.sum_cons]
  abel

end Total

/-! ## Refunds and their charges -/

/-- Every refund has a charge of its own. -/
def Covered (l : Ledger α) : Prop := l.refunds ≤ l.charges

variable {l : Ledger α} {a b : α}

theorem covered_empty : Covered (empty : Ledger α) := le_refl 0

theorem Covered.charge (h : l.Covered) (a : α) : (l.charge a).Covered :=
  le_trans h (Multiset.le_cons_self l.charges a)

/-- In a covered ledger no non-negative weight is refunded beyond what was charged. -/
theorem Covered.total_nonneg {M : Type*} [AddCommGroup M] [PartialOrder M]
    [IsOrderedAddMonoid M] {w : α → M} (h : l.Covered) (hw : ∀ a ∈ l.charges, 0 ≤ w a) :
    0 ≤ total w l := by
  obtain ⟨rest, hrest⟩ := Multiset.le_iff_exists_add.mp h
  have hsum : total w l = (rest.map w).sum := by
    rw [total, hrest, Multiset.map_add, Multiset.sum_add, add_sub_cancel_left]
  rw [hsum]
  apply Multiset.sum_nonneg
  intro x hx
  obtain ⟨a, ha, rfl⟩ := Multiset.mem_map.mp hx
  exact hw a (by rw [hrest]; exact Multiset.mem_add.mpr (Or.inr ha))

variable [DecidableEq α]

/-- There is a charge of the entry that no refund used up. -/
def Outstanding (l : Ledger α) (a : α) : Prop := l.refunds.count a < l.charges.count a

/-- Refunding an outstanding entry keeps the ledger covered. -/
theorem Covered.refund (h : l.Covered) (ha : l.Outstanding a) : (l.refund a).Covered := by
  rw [Covered, Multiset.le_iff_count]
  intro b
  by_cases hb : b = a
  · subst hb
    simpa [Ledger.refund] using Nat.succ_le_of_lt ha
  · simpa [Ledger.refund, hb] using Multiset.count_le_of_le b h

/-- What is charged to a covered ledger is outstanding. -/
theorem Covered.outstanding_charge (h : l.Covered) (a : α) : (l.charge a).Outstanding a := by
  have := Multiset.count_le_of_le a h
  simpa [Outstanding, Ledger.charge] using Nat.lt_succ_of_le this

theorem Outstanding.charge (h : l.Outstanding a) (b : α) : (l.charge b).Outstanding a :=
  lt_of_lt_of_le h (Multiset.count_le_count_cons a b l.charges)

/-- Refunding one entry leaves the others outstanding. -/
theorem Outstanding.refund_of_ne (h : l.Outstanding a) (hab : a ≠ b) :
    (l.refund b).Outstanding a := by
  simpa [Outstanding, Ledger.refund, hab] using h

end Ledger
