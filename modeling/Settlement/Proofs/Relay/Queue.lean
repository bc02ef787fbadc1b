import Settlement.Proofs.Batch.Ranking
import Settlement.Proofs.Result
import Settlement.Relay.Queue

namespace Settlement

namespace PendingQueue

variable (q : PendingQueue) (most : Nat) (now : Timestamp)

/-- What is selected by priority and what is left are the operations that there were, each of them
once. -/
theorem splitByPriority_perm (operations : List SignedOperation) :
    ((splitByPriority most now operations).1 ++ (splitByPriority most now operations).2).Perm
      operations := by
  have hranked : (rankByPriority now operations).Perm operations.zipIdx := rankByScore_perm ..
  have hothers := List.mergeSort_perm ((rankByPriority now operations).drop most)
    fun a b => a.2 ≤ b.2
  unfold splitByPriority
  simp only
  calc
    _ = (((rankByPriority now operations).take most ++
          ((rankByPriority now operations).drop most).mergeSort fun a b => a.2 ≤ b.2).map
            Prod.fst) := (List.map_append ..).symm
    List.Perm _ (((rankByPriority now operations).take most ++
          (rankByPriority now operations).drop most).map Prod.fst) :=
      (hothers.append_left _).map _
    _ = (rankByPriority now operations).map Prod.fst := by rw [List.take_append_drop]
    List.Perm _ (operations.zipIdx.map Prod.fst) := hranked.map _
    _ = operations := List.zipIdx_map_fst ..

/-- What a batch takes out of the queue and what stays are the operations of the queue, each of them
once. -/
theorem take_perm : ((q.take most now).1 ++ (q.take most now).2.operations).Perm q.operations := by
  unfold take
  cases q.order with
  | fifo => rw [List.take_append_drop]
  | priority => exact splitByPriority_perm most now q.operations

/-- In order of arrival the batch is the front of the queue, so putting it back restores the
queue. -/
theorem take_append_of_fifo (h : q.order = .fifo) :
    (q.take most now).1 ++ (q.take most now).2.operations = q.operations := by
  unfold take
  rw [h]
  exact List.take_append_drop ..

theorem length_take : (q.take most now).1.length = min most q.size := by
  unfold take
  cases q.order with
  | fifo => exact List.length_take
  | priority =>
    have hranked : (rankByPriority now q.operations).length = q.size := by
      rw [rankByPriority, (rankByScore_perm ..).length_eq, List.length_zipIdx]
      rfl
    simp only [splitByPriority, List.length_map, List.length_take, hranked]

theorem size_take : (q.take most now).2.size = q.size - min most q.size := by
  have hlength := (q.take_perm most now).length_eq
  rw [List.length_append, q.length_take] at hlength
  unfold size at hlength ⊢
  omega

/-- A batch that goes back leaves the queue as long as it was, also where that is its capacity. -/
theorem size_requeue_take : ((q.take most now).2.requeue (q.take most now).1).size = q.size :=
  (q.take_perm most now).length_eq

theorem push_eq_ok {q next : PendingQueue} {op : SignedOperation} (h : q.push op = .ok next) :
    q.size < q.capacity ∧ next = { q with operations := q.operations ++ [op] } := by
  obtain ⟨_, hroom, hnext⟩ := Result.bind_eq_ok_iff.1 h
  exact ⟨require_eq_ok_iff.1 hroom, (Result.pure_eq_ok_iff.1 hnext).symm⟩

end PendingQueue

end Settlement
