import Settlement.Proofs.Relay.Selection

namespace Settlement

section Select

variable {α : Type} {score : α → Nat} {most : Nat} {front back : List α}

/-- Items that are ranked already and at least as good as the rest are the first of the ranking. -/
theorem ranking_append (hfront : front.Pairwise fun a b => score b ≤ score a)
    (hbest : ∀ a ∈ front, ∀ b ∈ back, score b ≤ score a) :
    ranking score (front ++ back) =
      front.zipIdx ++ rankByScore (fun member => score member.1) (back.zipIdx front.length) := by
  have hpairwise : front.zipIdx.Pairwise fun a b => score b.1 ≤ score a.1 := by
    rw [← List.pairwise_map (f := Prod.fst) (R := fun a b => score b ≤ score a),
      List.zipIdx_map_fst]
    exact hfront
  have hfirst : ∀ a ∈ front.zipIdx, ∀ b ∈ back.zipIdx front.length, score b.1 ≤ score a.1 :=
    fun a ha b hb => hbest _ (List.fst_mem_of_mem_zipIdx ha) _ (List.fst_mem_of_mem_zipIdx hb)
  have hranked := (ranksStably_rankByScore (fun member : α × Nat => score member.1)
    (back.zipIdx front.length)).append hpairwise hfirst
  rw [ranking, List.zipIdx_append, Nat.zero_add]
  exact (ranksStably_rankByScore ..).eq hranked

theorem outside_append : outside (front ++ back) (List.range front.length) = back := by
  have hnone : (front.zipIdx.filter fun member => member.2 ∉ List.range front.length) = [] := by
    apply List.filter_eq_nil_iff.2
    intro member hmem
    have hlt := (List.mem_zipIdx hmem).2.1
    simpa using hlt
  have hall : ((back.zipIdx front.length).filter
      fun member => member.2 ∉ List.range front.length) = back.zipIdx front.length := by
    apply List.filter_eq_self.2
    intro member hmem
    have hle := (List.mem_zipIdx hmem).1
    simpa using hle
  rw [outside, List.zipIdx_append, Nat.zero_add, List.filter_append, hnone, hall,
    List.nil_append, List.zipIdx_map_fst]

theorem selectByRank_append (hfront : front.Pairwise fun a b => score b ≤ score a)
    (hbest : ∀ a ∈ front, ∀ b ∈ back, score b ≤ score a)
    (hsize : front.length = min most (front ++ back).length) :
    selectByRank score most (front ++ back) = (front, back) := by
  rw [List.length_append] at hsize
  have htake : (ranking score (front ++ back)).take most = front.zipIdx := by
    have hrest : (rankByScore (fun member => score member.1)
        (back.zipIdx front.length)).length = back.length := by
      rw [(rankByScore_perm ..).length_eq, List.length_zipIdx]
    rw [ranking_append hfront hbest, List.take_append, List.length_zipIdx, List.take_of_length_le,
      List.take_eq_nil_iff.2, List.append_nil]
    · -- either the batch is full or nothing was left behind
      rw [← List.length_eq_zero_iff, hrest]
      omega
    · rw [List.length_zipIdx]
      omega
  have hbestOf : bestOf score most (front ++ back) = List.range front.length := by
    rw [bestOf, htake, List.zipIdx_map_snd, List.range_eq_range']
  rw [selectByRank_eq, hbestOf, outside_append, ← map_fst_ranking, ← List.map_take, htake,
    List.zipIdx_map_fst]

theorem selectByRank_again (score : α → Nat) (most : Nat) (items : List α) :
    selectByRank score most
      ((selectByRank score most items).1 ++ (selectByRank score most items).2) =
        selectByRank score most items := by
  obtain ⟨hdescending, hbest⟩ := selectByRank_descending score most items
  apply selectByRank_append hdescending hbest
  rw [length_selectByRank, (selectByRank_perm score most items).length_eq]

end Select

namespace PendingQueue

/-- What is taken, given back and taken again at the same time is the same batch, and the same is
left: the batch stands in front in the order of its ranks, and nothing behind it scores higher, so
ranking the queue anew leaves it where it is. In order of arrival a batch that goes back restores
the queue, whenever it was taken. -/
theorem take_requeue_take (q : PendingQueue) (most : Nat) (now : Timestamp) :
    ((q.take most now).2.requeue (q.take most now).1).take most now = q.take most now ∧
      (q.order = .fifo → (q.take most now).2.requeue (q.take most now).1 = q) := by
  have hfifo (h : q.order = .fifo) : (q.take most now).2.requeue (q.take most now).1 = q := by
    have hrestored := q.take_append_of_fifo most now h
    have hkept : (q.take most now).2.requeue (q.take most now).1 =
        { q with operations := (q.take most now).1 ++ (q.take most now).2.operations } := rfl
    rw [hkept, hrestored]
  refine ⟨?_, hfifo⟩
  cases horder : q.order with
  | fifo => rw [hfifo horder]
  | priority =>
    have hagain := selectByRank_again (SignedOperation.score now) most q.operations
    have hkept : ((q.take most now).2.requeue (q.take most now).1).order = .priority := horder
    rw [take_of_priority hkept, take_of_priority horder]
    simp only [requeue, hagain]

/-- By priority a batch that goes back does not restore the queue, which is then in the order of its
ranks. -/
theorem take_requeue_take_of_crowded :
    (crowdedQueue.take 3 .epoch).2.requeue (crowdedQueue.take 3 .epoch).1 ≠ crowdedQueue ∧
      ((crowdedQueue.take 3 .epoch).2.requeue (crowdedQueue.take 3 .epoch).1).take 3 .epoch =
        crowdedQueue.take 3 .epoch ∧
      ({ crowdedQueue with order := .fifo }.take 3 .epoch).2.requeue
        ({ crowdedQueue with order := .fifo }.take 3 .epoch).1 =
          { crowdedQueue with order := .fifo } := by
  obtain ⟨hagain, -⟩ := take_requeue_take crowdedQueue 3 .epoch
  obtain ⟨-, hrestored⟩ := take_requeue_take { crowdedQueue with order := .fifo } 3 .epoch
  refine ⟨?_, hagain, hrestored rfl⟩
  intro heq
  have hfront : ((crowdedQueue.take 3 .epoch).2.requeue (crowdedQueue.take 3 .epoch).1).operations =
      [payment 2 40 false, payment 3 41 false, payment 1 5 false, payment 1 5 false] := by cbv
  rw [heq] at hfront
  revert hfront
  decide

end PendingQueue

end Settlement
