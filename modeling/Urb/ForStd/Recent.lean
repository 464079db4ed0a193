import Mathlib.Data.List.Dedup
import Mathlib.Data.List.DropRight

/-!
# The most recent distinct elements of a list

Of a list to which elements are appended, `List.recent n` are the last `n` elements that differ from
one another, in the order in which they were appended last. A queue that drops its first element
when it is full keeps them, as long as nothing is appended that it still has.
-/

namespace List

universe u

variable {α : Type u} {n : Nat} {l l' : List α} {a : α}

theorem rtake_append_of_le_length (h : n ≤ l'.length) : (l ++ l').rtake n = l'.rtake n := by
  have hlength : (l ++ l').length - n = l.length + (l'.length - n) := by
    rw [length_append]
    omega
  rw [rtake, hlength, drop_append, rtake]
  simp

theorem rtake_of_length_le (h : l.length ≤ n) : l.rtake n = l := by
  rw [rtake, Nat.sub_eq_zero_of_le h, drop_zero]

theorem length_rtake (n : Nat) (l : List α) : (l.rtake n).length = min n l.length := by
  rw [rtake, length_drop]
  omega

/-- Without its first element, if there are that many, the end of a list is the shorter end. -/
theorem rtake_eq_tail (n : Nat) (l : List α) :
    l.rtake n = if (l.rtake (n + 1)).length = n + 1 then (l.rtake (n + 1)).tail
      else l.rtake (n + 1) := by
  rw [length_rtake]
  split
  · rename_i hfull
    rw [rtake, rtake, tail_drop]
    congr 1
    omega
  · rename_i hfree
    rw [rtake_of_length_le (by omega), rtake_of_length_le (by omega)]

variable [DecidableEq α]

theorem dedup_concat (l : List α) (a : α) : (l ++ [a]).dedup = l.dedup.filter (· ≠ a) ++ [a] := by
  induction l with
  | nil => simp
  | cons b l ih =>
    by_cases hb : b ∈ l
    · rw [cons_append, dedup_cons_of_mem (mem_append_left _ hb), dedup_cons_of_mem hb, ih]
    · rw [dedup_cons_of_notMem hb]
      by_cases hba : b = a
      · subst hba
        rw [cons_append, dedup_cons_of_mem (by simp), ih]
        simp
      · rw [cons_append, dedup_cons_of_notMem (by simp [hb, hba]), ih,
          filter_cons_of_pos (by simpa),
          cons_append]

/-- The last `n` distinct elements. -/
def recent (n : Nat) (l : List α) : List α := l.dedup.rtake n

theorem nodup_recent (n : Nat) (l : List α) : (l.recent n).Nodup :=
  (nodup_dedup l).sublist (drop_sublist _ _)

theorem length_recent_le (n : Nat) (l : List α) : (l.recent n).length ≤ n := by
  rw [recent, length_rtake]
  exact Nat.min_le_left ..

/-- An element that is not among the recent ones takes the place of the first of them, if there is
    no room for it. -/
theorem recent_concat (h : a ∉ l.recent (n + 1)) : (l ++ [a]).recent (n + 1) =
      (if (l.recent (n + 1)).length = n + 1 then (l.recent (n + 1)).tail
        else l.recent (n + 1)) ++ [a] := by
  have hold : (l.dedup.filter (· ≠ a)).rtake n = l.dedup.rtake n := by
    have hend : (l.recent (n + 1)).filter (· ≠ a) = l.recent (n + 1) := by
      rw [filter_eq_self]
      intro b hb
      simp only [ne_eq, decide_not, Bool.not_eq_true', decide_eq_false_iff_not]
      rintro rfl
      exact h hb
    have hsplit : l.dedup = l.dedup.rdrop (n + 1) ++ l.recent (n + 1) := by
      rw [recent, rdrop, rtake, take_append_drop]
    by_cases hshort : l.dedup.length ≤ n + 1
    · have hall : l.recent (n + 1) = l.dedup := rtake_of_length_le hshort
      rw [hall] at hend
      rw [hend]
    · -- what is filtered out is before the end that counts
      have hlength : (l.recent (n + 1)).length = n + 1 := by
        rw [recent, length_rtake]
        omega
      rw [hsplit, filter_append, hend, rtake_append_of_le_length (by omega),
        rtake_append_of_le_length (by omega)]
  rw [recent, dedup_concat, rtake_concat_succ, hold, rtake_eq_tail]
  rfl

end List
