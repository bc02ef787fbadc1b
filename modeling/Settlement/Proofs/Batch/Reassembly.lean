import Settlement.Proofs.Batch.Log
import Settlement.Proofs.Result

namespace Settlement

section Parts

variable {α β : Type} {p : α → Bool}

/-- Results for all items of a list, put together from those for the marked items and those for the
others. Each item has the result that was given for it in its part. -/
structure Reassembles (p : α → Bool) (items : List α) (marked others results : List β) :
    Prop where
  length : results.length = items.length
  marked : (items.zip results).filter (fun item => p item.1) = (items.filter p).zip marked
  others : (items.zip results).filter (fun item => !p item.1) =
    (items.filter fun item => !p item).zip others

namespace Reassembles

variable {items : List α} {marked others results : List β}

theorem nil : Reassembles p [] [] [] ([] : List β) := ⟨rfl, rfl, rfl⟩

theorem cons_marked (h : Reassembles p items marked others results) {item : α} (hitem : p item)
    (b : β) : Reassembles p (item :: items) (b :: marked) others (b :: results) := by
  constructor
  · rw [List.length_cons, List.length_cons, h.length]
  · simp [hitem, h.marked]
  · simp [hitem, h.others]

theorem cons_other (h : Reassembles p items marked others results) {item : α}
    (hitem : ¬ p item = true) (b : β) :
    Reassembles p (item :: items) marked (b :: others) (b :: results) := by
  constructor
  · rw [List.length_cons, List.length_cons, h.length]
  · simp [hitem, h.marked]
  · simp [hitem, h.others]

/-- Results that are one function of the items in both parts are that function of all items. -/
theorem eq_map {f : α → β}
    (h : Reassembles p items ((items.filter p).map f) ((items.filter fun item => !p item).map f)
      results) : results = items.map f := by
  have hpaired : ∀ kept : List α, ∀ pair ∈ kept.zip (kept.map f), pair.2 = f pair.1 := by
    intro kept pair hmem
    rw [List.zip_map_right] at hmem
    obtain ⟨⟨a, b⟩, hab, rfl⟩ := List.mem_map.1 hmem
    rw [List.zip_eq_zipWith, List.zipWith_self] at hab
    obtain ⟨item, -, heq⟩ := List.mem_map.1 hab
    cases heq
    rfl
  have hall : ∀ pair ∈ items.zip results, pair.2 = f pair.1 := by
    intro pair hmem
    by_cases hp : p pair.1 = true
    · apply hpaired (items.filter p)
      rw [← h.marked]
      exact List.mem_filter.2 ⟨hmem, hp⟩
    · apply hpaired (items.filter fun item => !p item)
      rw [← h.others]
      exact List.mem_filter.2 ⟨hmem, by simp [hp]⟩
  apply List.ext_getElem
  · rw [h.length, List.length_map]
  · intro i hresult hitem
    have hi : i < items.length := by rwa [← h.length]
    have hzip : i < (items.zip results).length := by
      rw [List.length_zip]
      omega
    have hmem : (items[i], results[i]) ∈ items.zip results := by
      have hget := List.getElem_mem hzip
      rwa [List.getElem_zip] at hget
    rw [List.getElem_map]
    exact hall _ hmem

/-- What holds for results of marked items is counted in the parts as in the whole. -/
theorem countP_marked (h : Reassembles p items marked others results)
    (hlength : marked.length = (items.filter p).length) (q : β → Bool) :
    marked.countP q = (items.zip results).countP fun entry => p entry.1 && q entry.2 := by
  have hsnd : ((items.filter p).zip marked).map Prod.snd = marked :=
    List.map_snd_zip (Nat.le_of_eq hlength)
  calc
    marked.countP q = ((items.filter p).zip marked).countP fun entry => q entry.2 := by
      rw [← hsnd, List.countP_map, hsnd]
      rfl
    _ = (items.zip results).countP fun entry => q entry.2 && p entry.1 := by
      rw [← h.marked, List.countP_filter]
    _ = (items.zip results).countP fun entry => p entry.1 && q entry.2 :=
      List.countP_congr fun entry _ => by rw [Bool.and_comm]

end Reassembles

/-- Merging takes the first item of the left list if it comes before all of the right one. -/
private theorem cons_merge_of_le {le : α → α → Bool} {a : α} {l r : List α}
    (h : ∀ b ∈ r, le a b = true) : (a :: l).merge r le = a :: l.merge r le := by
  cases r with
  | nil => rw [List.merge_right, List.merge_right]
  | cons b r => rw [List.cons_merge_cons, if_pos (h b (List.mem_cons_self ..))]

/-- Merging takes the first item of the right list if none of the left one comes before it. -/
private theorem merge_cons_of_not_le {le : α → α → Bool} {b : α} {l r : List α}
    (h : ∀ a ∈ l, le a b = false) : l.merge (b :: r) le = b :: l.merge r le := by
  cases l with
  | nil => rw [List.nil_merge, List.nil_merge]
  | cons a l =>
    have hnot : ¬ le a b = true := by simp [h a (List.mem_cons_self ..)]
    rw [List.cons_merge_cons, if_neg hnot]

/-- Where the items that satisfy `p` stand, if the first item stands at `start`. -/
def positions (p : α → Bool) (items : List α) (start : Nat) : List Nat :=
  ((items.zipIdx start).filter fun member => p member.1).map Prod.snd

private theorem positions_cons_of_pos {item : α} (hitem : p item = true) (items : List α)
    (start : Nat) : positions p (item :: items) start = start :: positions p items (start + 1) := by
  simp [positions, List.zipIdx_cons, hitem]

private theorem positions_cons_of_neg {item : α} (hitem : ¬ p item = true) (items : List α)
    (start : Nat) : positions p (item :: items) start = positions p items (start + 1) := by
  simp [positions, List.zipIdx_cons, hitem]

private theorem le_of_mem_zip_positions {items : List α} {results : List β} {start : Nat}
    {entry : Nat × β} (h : entry ∈ (positions p items start).zip results) : start ≤ entry.1 := by
  have hmem : entry.1 ∈ positions p items start := (List.of_mem_zip h).1
  obtain ⟨member, hmember, heq⟩ := List.mem_map.1 hmem
  rw [← heq]
  exact (List.mem_zipIdx (List.mem_filter.1 hmember).1).1

/-- Merging by position puts the results in the order of the items: each group holds the items of
its kind in their order, and positions grow along the list. The induction is on the items, whose
first position is before all others in both groups. -/
theorem reassembles_merge (items : List α) (start : Nat) {marked others : List β}
    (hmarked : marked.length = (positions p items start).length)
    (hothers : others.length = (positions (fun item => !p item) items start).length) :
    Reassembles p items marked others
      ((((positions p items start).zip marked).merge
        ((positions (fun item => !p item) items start).zip others)
          fun a b => a.1 ≤ b.1).map Prod.snd) := by
  induction items generalizing start marked others with
  | nil =>
    obtain rfl : marked = [] := List.eq_nil_of_length_eq_zero hmarked
    obtain rfl : others = [] := List.eq_nil_of_length_eq_zero hothers
    rw [List.zip_nil_right, List.nil_merge]
    exact .nil
  | cons item items ih =>
    by_cases hitem : p item = true
    · have hnot : ¬ (!p item) = true := by simp [hitem]
      rw [positions_cons_of_pos hitem] at hmarked ⊢
      rw [positions_cons_of_neg (p := fun item => !p item) hnot] at hothers ⊢
      cases marked with
      | nil => cases hmarked
      | cons b marked =>
        -- later positions are larger, so the head of the marked part comes first
        rw [List.zip_cons_cons, cons_merge_of_le, List.map_cons]
        · exact (ih (start + 1) (Nat.succ.inj hmarked) hothers).cons_marked hitem b
        · intro entry hentry
          have hle := le_of_mem_zip_positions hentry
          exact decide_eq_true (by omega)
    · have hother : (!p item) = true := by simp [hitem]
      rw [positions_cons_of_neg hitem] at hmarked ⊢
      rw [positions_cons_of_pos (p := fun item => !p item) hother] at hothers ⊢
      cases others with
      | nil => cases hothers
      | cons b others =>
        rw [List.zip_cons_cons, merge_cons_of_not_le, List.map_cons]
        · exact (ih (start + 1) hmarked (Nat.succ.inj hothers)).cons_other hitem b
        · intro entry hentry
          have hle := le_of_mem_zip_positions hentry
          exact decide_eq_false (by omega)

end Parts

namespace BatchPolicy

/-- A batch is settled only if its size is within the bounds of the policy. -/
theorem checkSize_eq_ok_iff {policy : BatchPolicy} {size : Nat} :
    policy.checkSize size = .ok () ↔
      policy.minBatchSize.val ≤ size ∧ size ≤ policy.maxBatchSize.val := by
  constructor
  · intro h
    obtain ⟨_, hmin, hmax⟩ := Result.bind_eq_ok_iff.1 h
    exact ⟨require_eq_ok_iff.1 hmin, require_eq_ok_iff.1 hmax⟩
  · rintro ⟨hmin, hmax⟩
    exact Result.bind_eq_ok_iff.2 ⟨(), require_eq_ok_iff.2 hmin, require_eq_ok_iff.2 hmax⟩

variable (policy : BatchPolicy)

/-- Whether an operation is settled with the weak ones. Without the era path none is, whatever its
payer has signed. -/
def isWeak (op : SignedOperation) : Bool := policy.eraPathEnabled && op.isPeriodBound

/-- The operations of a batch that are settled with the weak ones, in the order of the batch. -/
def weak (operations : List SignedOperation) : List SignedOperation :=
  operations.filter policy.isWeak

/-- The operations of a batch that are settled with the strong ones, in the order of the batch. -/
def strong (operations : List SignedOperation) : List SignedOperation :=
  operations.filter fun op => !policy.isWeak op

theorem strong_append_weak_perm (operations : List SignedOperation) :
    (policy.strong operations ++ policy.weak operations).Perm operations :=
  List.perm_append_comm.trans (List.filter_append_perm ..)

end BatchPolicy

namespace Partition

variable (policy : BatchPolicy) (operations : List SignedOperation)

private theorem map_fst_filter (p : SignedOperation → Bool) :
    (operations.zipIdx.filter fun member => p member.1).map Prod.fst = operations.filter p := by
  have hmap := List.filter_map (p := p) (f := Prod.fst) (l := operations.zipIdx)
  rw [List.zipIdx_map_fst] at hmap
  exact hmap.symm

theorem weak_operations :
    (classify policy.eraPathEnabled operations).weak.operations = policy.weak operations :=
  map_fst_filter operations policy.isWeak

theorem strong_operations :
    (classify policy.eraPathEnabled operations).strong.operations = policy.strong operations :=
  map_fst_filter operations fun op => !policy.isWeak op

/-- Results of the right numbers are always put together, and each operation gets the flag that was
answered for it. -/
theorem exists_reassemble {weakResults strongResults : List Bool}
    (hweak : weakResults.length = (policy.weak operations).length)
    (hstrong : strongResults.length = (policy.strong operations).length) :
    ∃ results,
      (classify policy.eraPathEnabled operations).reassemble weakResults strongResults =
        .ok results ∧
      Reassembles policy.isWeak operations weakResults strongResults results := by
  rw [← weak_operations, OperationGroup.operations, List.length_map] at hweak
  rw [← strong_operations, OperationGroup.operations, List.length_map] at hstrong
  refine ⟨_, ?_, reassembles_merge operations 0 ?_ ?_⟩
  · unfold reassemble
    simp only [OperationGroup.size, hweak, hstrong, require, if_true]
    rfl
  · rw [hweak]
    exact (List.length_map ..).symm
  · rw [hstrong]
    exact (List.length_map ..).symm

end Partition

end Settlement
