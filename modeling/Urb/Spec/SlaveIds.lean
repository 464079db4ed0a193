import Urb.Native.ExecutorDriver
import Urb.Native.Offers

/-!
# Slave ids

The runner makes the id of a slave out of the job, the task and its own channel. The service reads
the job back, the executor the channel, both by searching for one character. Nothing is lost: two
runners that differ in one of the three have different ids, and none has the id of a place-holder.
-/

namespace Urb

open NamingUtility

variable {j t c : String}

theorem toList_createSlaveId (j t c : String) : (createSlaveId j t c).toList =
    's' :: 'l' :: 'a' :: 'v' :: 'e' :: '-' ::
      (j.toList ++ '.' :: (t.toList ++ ':' :: c.toList)) := by
  simp [createSlaveId]

theorem getJobIdFromSlaveId_createSlaveId (hj : '.' ∉ j.toList) (t c : String) :
    getJobIdFromSlaveId (createSlaveId j t c) = some j := by
  have hdot : ∀ x ∈ j.toList, (!decide (x = '.')) = true := by
    intro x hx
    simp only [Bool.not_eq_true', decide_eq_false_iff_not]
    rintro rfl
    exact hj hx
  have htake : (j.toList ++ '.' :: (t.toList ++ ':' :: c.toList)).takeWhile
      (fun x => !decide (x = '.')) = j.toList := by
    rw [List.takeWhile_append_of_pos hdot]
    simp
  simp [getJobIdFromSlaveId, toList_createSlaveId, htake]

theorem executorRunnerChannel_createSlaveId (hc : ':' ∉ c.toList) (j t : String) :
    Exec.executorRunnerChannel (createSlaveId j t c) = some c := by
  have hcolon : ∀ x ∈ c.toList.reverse, decide (x ≠ ':') = true := by
    intro x hx
    simp only [ne_eq, decide_eq_true_eq]
    rintro rfl
    exact hc (List.mem_reverse.mp hx)
  have htake : (createSlaveId j t c).toList.rtakeWhile (· ≠ ':') = c.toList := by
    rw [toList_createSlaveId, List.rtakeWhile]
    simp only [List.reverse_cons, List.reverse_append, List.append_assoc]
    rw [List.takeWhile_append_of_pos hcolon]
    simp
  rw [Exec.executorRunnerChannel, htake, if_pos (by simp [toList_createSlaveId])]
  simp

theorem isPlaceholder_createSlaveId (j t c : String) :
    isPlaceholder (createSlaveId j t c) = false := by
  simp [isPlaceholder, toList_createSlaveId, List.isPrefixOf]

/-- What differs in one part differs as a whole. -/
theorem createSlaveId_injective {j' t' c' : String} (hj : '.' ∉ j.toList) (hj' : '.' ∉ j'.toList)
    (hc : ':' ∉ c.toList) (hc' : ':' ∉ c'.toList)
    (h : createSlaveId j t c = createSlaveId j' t' c') : j = j' ∧ t = t' ∧ c = c' := by
  have hjob := getJobIdFromSlaveId_createSlaveId hj t c
  rw [h, getJobIdFromSlaveId_createSlaveId hj'] at hjob
  have hchannel := executorRunnerChannel_createSlaveId hc j t
  rw [h, executorRunnerChannel_createSlaveId hc'] at hchannel
  cases hjob
  cases hchannel
  have hlist := congrArg String.toList h
  simp only [toList_createSlaveId, List.cons.injEq, true_and, List.append_cancel_left_eq,
    List.append_cancel_right_eq] at hlist
  exact ⟨rfl, String.toList_injective hlist, rfl⟩

/-- The number of an offer has no dot. -/
theorem getJobIdFromSlaveId_placeholder {p : String} (hp : '.' ∉ p.toList) (n : Nat) :
    getJobIdFromSlaveId (p ++ "-" ++ toString n) = none := by
  have hdot : '.' ∉ Nat.toDigits 10 n := by
    intro hmem
    exact absurd (Nat.isDigit_of_mem_toDigits (by decide) (by decide) hmem) (by decide)
  have hall : '.' ∉ (p ++ "-" ++ toString n).toList := by simp [hp, hdot]
  unfold getJobIdFromSlaveId
  split
  · rfl
  · rename_i x rest hrest
    have hsub := (List.dropWhile_sublist (l := (p ++ "-" ++ toString n).toList) (· ≠ '-')).subset
    rw [hrest] at hsub
    exact if_neg fun hmem => hall (hsub (List.mem_cons_of_mem x hmem))

/-- The parts of a slave id are found again, by the service and by the executor. -/
theorem slave_ids_round_trip (j t c : String) (hj : '.' ∉ j.toList)
    (hc : ':' ∉ c.toList) :
    getJobIdFromSlaveId (createSlaveId j t c) = some j ∧
      Exec.executorRunnerChannel (createSlaveId j t c) = some c ∧
      isPlaceholder (createSlaveId j t c) = false ∧
      (∀ j' t' c', '.' ∉ j'.toList → ':' ∉ c'.toList →
        createSlaveId j t c = createSlaveId j' t' c' → j = j' ∧ t = t' ∧ c = c') ∧
      ∀ frameworkId offerId p slave, isPlaceholder p = true → '.' ∉ p.toList →
        getJobIdFromSlaveId (buildOffer frameworkId offerId p slave).slaveId = none := by
  refine ⟨getJobIdFromSlaveId_createSlaveId hj t c, executorRunnerChannel_createSlaveId hc j t,
    isPlaceholder_createSlaveId j t c, ?_, ?_⟩
  · intro j' t' c' hj' hc' h
    exact createSlaveId_injective hj hj' hc hc' h
  · intro frameworkId offerId p slave hp hdot
    rw [buildOffer, if_pos hp]
    exact getJobIdFromSlaveId_placeholder hdot offerId

/-- The job of a pod, whose name has dashes. -/
theorem slave_ids_round_trip_pod :
    getJobIdFromSlaveId (createSlaveId "urb-exec-1-x7" "1" "urb.endpoint.1.notify") =
      some "urb-exec-1-x7" :=
  (slave_ids_round_trip "urb-exec-1-x7" "1" "urb.endpoint.1.notify" (by decide) (by decide)).1

end Urb
