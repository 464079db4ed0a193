import Mathlib.Data.List.Basic
import Mathlib.Data.List.Sort

/-!
# Redis lists and sorted sets

The list commands of Redis on a value `l : List α`, whose head is the left end of the list, and
what they do to the concatenation of two lists between which elements move. The sorted sets are
lists of members with their scores, the lowest score first.
-/

namespace Redis

universe u v

variable {α : Type u} {β : Type v} {key : α → β} {z : List (Nat × α)}

/-- `LPUSH` -/
def lpush (l : List α) (x : α) : List α := x :: l

/-- `RPUSH` -/
def rpush (l : List α) (x : α) : List α := l ++ [x]

/-- `RPOPLPUSH`: the right end of `src` becomes the left end of `dst`. -/
def rpoplpush (src dst : List α) : Option α × List α × List α :=
  match src.getLast? with
  | none => (none, src, dst)
  | some x => (some x, src.dropLast, lpush dst x)

/-- `LREM` with count 0 of the elements that are stored as `x`, where `key` says how an element
    is stored. -/
def lrem [DecidableEq β] (key : α → β) (x : β) (l : List α) : List α :=
  l.filter fun y => key y ≠ x

/-- What `RPOPLPUSH` does: nothing, or it moves the right end. -/
theorem rpoplpush_cases (src dst : List α) : (src = [] ∧ rpoplpush src dst = (none, [], dst)) ∨
      ∃ l x, src = l ++ [x] ∧ rpoplpush src dst = (some x, l, x :: dst) := by
  rcases List.eq_nil_or_concat src with rfl | ⟨l, x, rfl⟩
  · exact .inl ⟨rfl, rfl⟩
  · refine .inr ⟨l, x, List.concat_eq_append, ?_⟩
    simp [rpoplpush, lpush]

theorem rpoplpush_append (src dst : List α) :
    (rpoplpush src dst).2.1 ++ (rpoplpush src dst).2.2 = src ++ dst := by
  rcases rpoplpush_cases src dst with ⟨rfl, h⟩ | ⟨l, x, rfl, h⟩
  · rw [h]
  · rw [h, List.append_assoc, List.singleton_append]

theorem mem_lrem [DecidableEq β] {x : β} {l : List α} {y : α} :
    y ∈ lrem key x l ↔ y ∈ l ∧ key y ≠ x := by
  rw [lrem, List.mem_filter, decide_eq_true_eq]

theorem map_rpoplpush (f : α → β) (src dst : List α) : rpoplpush (src.map f) (dst.map f) =
      ((rpoplpush src dst).1.map f, (rpoplpush src dst).2.1.map f,
        (rpoplpush src dst).2.2.map f) := by
  rcases rpoplpush_cases src dst with ⟨rfl, h⟩ | ⟨l, x, rfl, h⟩
  · rw [h]
    rfl
  · rw [h]
    simp [rpoplpush, lpush]

/-! ## Sorted sets -/

/-- `ZADD`: a member that is stored as `x` already gets the new score. -/
def zadd [DecidableEq β] (key : α → β) (z : List (Nat × α)) (score : Nat) (x : α) :
    List (Nat × α) :=
  (z.filter fun e => key e.2 ≠ key x).orderedInsert (fun e e' => e.1 ≤ e'.1) (score, x)

/-- `ZRANGEBYSCORE` from 0 to `max` -/
def zrangebyscore (z : List (Nat × α)) (max : Nat) : List α :=
  (z.filter fun e => e.1 ≤ max).map Prod.snd

/-- `ZREMRANGEBYSCORE` from 0 to `max` -/
def zremrangebyscore (z : List (Nat × α)) (max : Nat) : List (Nat × α) :=
  z.filter fun e => ¬e.1 ≤ max

/-- A new member is added. -/
theorem zadd_perm [DecidableEq β] {x : α} (hnew : ∀ e ∈ z, key e.2 ≠ key x) (score : Nat) :
    (zadd key z score x).Perm ((score, x) :: z) := by
  have hall : z.filter (fun e => key e.2 ≠ key x) = z := by
    rw [List.filter_eq_self]
    intro e he
    exact decide_eq_true (hnew e he)
  rw [zadd, hall]
  exact List.perm_orderedInsert _ _ _

/-- The range does not contain a new member whose score is above it. -/
theorem zrangebyscore_zadd_perm [DecidableEq β] {x : α}
    (hnew : ∀ e ∈ z, key e.2 ≠ key x) {score max : Nat} (hscore : max < score) :
    (zrangebyscore (zadd key z score x) max).Perm (zrangebyscore z max) := by
  have hperm := ((zadd_perm hnew score).filter fun e => e.1 ≤ max).map Prod.snd
  rwa [List.filter_cons, if_neg (by simpa using hscore)] at hperm

/-- The members of the range and those that are left when it is removed. -/
theorem zremrangebyscore_perm (z : List (Nat × α)) (max : Nat) :
    ((zremrangebyscore z max).map Prod.snd ++ zrangebyscore z max).Perm (z.map Prod.snd) := by
  rw [zrangebyscore, zremrangebyscore, ← List.map_append]
  apply List.Perm.map
  have hperm := List.filter_append_perm (fun e : Nat × α => decide (e.1 ≤ max)) z
  simp only [← decide_not] at hperm
  exact List.perm_append_comm.trans hperm

end Redis
