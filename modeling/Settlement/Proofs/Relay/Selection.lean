import Mathlib.Data.List.Permutation
import Settlement.Proofs.Batch.Alignment
import Settlement.Proofs.Relay.Queue
import Settlement.Relay.Selection

namespace Settlement

variable {α : Type}

section Sorting

/-- Ranks are ordered by descending score and then by position, and this is a total order. -/
theorem outranks_trans (a b c : Nat × Nat) (hab : outranks a b = true) (hbc : outranks b c = true) :
    outranks a c = true := by
  simp only [outranks, Bool.or_eq_true, Bool.and_eq_true, decide_eq_true_eq, beq_iff_eq] at *
  omega

theorem outranks_total (a b : Nat × Nat) : (outranks a b || outranks b a) = true := by
  simp only [outranks, Bool.or_eq_true, Bool.and_eq_true, decide_eq_true_eq, beq_iff_eq]
  omega

/-- Only equal ranks come before each other, and positions make each operation one of its own. -/
theorem outranks_antisymm {a b : Nat × Nat} (hab : outranks a b = true)
    (hba : outranks b a = true) : a = b := by
  simp only [outranks, Bool.or_eq_true, Bool.and_eq_true, decide_eq_true_eq, beq_iff_eq] at hab hba
  exact Prod.ext (by omega) (by omega)

/-- The scores with their positions, in the order of the items. -/
def scoreKeys (score : α → Nat) (items : List α) : List (Nat × Nat) :=
  items.zipIdx.map fun member => (score member.1, member.2)

/-- However the scores are sorted with their positions, they come out in the order of the
ranking. -/
theorem map_snd_of_sorted {score : α → Nat} {items : List α} {sorted : List (Nat × Nat)}
    (hperm : sorted.Perm (scoreKeys score items))
    (hsorted : sorted.Pairwise fun a b => outranks a b = true) :
    sorted.map Prod.snd = (ranking score items).map Prod.snd := by
  have hranked : ((ranking score items).map fun member => (score member.1, member.2)).Pairwise
      fun a b => outranks a b = true := by
    rw [List.pairwise_map]
    have hpairwise := (ranksStably_rankByScore (fun member : α × Nat => score member.1)
      items.zipIdx).pairwise (pairwise_zipIdx items)
    apply hpairwise.imp
    intro a b hab
    simp only [outranks, Bool.or_eq_true, Bool.and_eq_true, decide_eq_true_eq, beq_iff_eq]
    omega
  have heq : sorted = (ranking score items).map fun member => (score member.1, member.2) := by
    apply List.Perm.eq_of_pairwise (fun _ _ _ _ => outranks_antisymm) hsorted hranked
    exact hperm.trans ((ranking_perm score items).map _).symm
  rw [heq, List.map_map]
  rfl

/-- The positions that are selected are those of the first of the ranking, in whatever way they are
sorted. -/
theorem bestPositions_eq (score : α → Nat) (most : Nat) (items : List α) :
    bestPositions score most items = bestOf score most items := by
  have hsorted := map_snd_of_sorted (List.mergeSort_perm (scoreKeys score items) outranks)
    (List.pairwise_mergeSort outranks_trans outranks_total _)
  rw [bestPositions, bestOf, List.map_take, List.map_take, ← hsorted]
  rfl

end Sorting

section Table

theorem idxOf?_of_getElem? {best : List Nat} (hnodup : best.Nodup) {rank i : Nat}
    (h : best[rank]? = some i) : best.idxOf? i = some rank := by
  obtain ⟨hrank, rfl⟩ := List.getElem?_eq_some_iff.1 h
  rw [List.idxOf?_eq_some_iff]
  refine ⟨hrank, rfl, fun j hj heq => ?_⟩
  exact Nat.ne_of_lt hj ((List.getElem_inj hnodup).1 heq)

theorem map_idxOf?_self {best : List Nat} (hnodup : best.Nodup) :
    (best.map fun i => best.idxOf? i) = (List.range best.length).map some := by
  apply List.ext_getElem
  · rw [List.length_map, List.length_map, List.length_range]
  · intro rank hrank _
    have hrank : rank < best.length := by rwa [List.length_map] at hrank
    rw [List.getElem_map, List.getElem_map, List.getElem_range]
    exact idxOf?_of_getElem? hnodup (List.getElem?_eq_getElem hrank)

theorem rankTable_eq {best : List Nat} {size : Nat} (hnodup : best.Nodup)
    (hbound : ∀ i ∈ best, i < size) :
    rankTable size best = (List.range size).map fun i => best.idxOf? i := by
  have hranked : ∀ i ∈ best, (rankTable size best)[i]? = some (best.idxOf? i) := by
    have hbound' : ∀ i ∈ best, i < (List.replicate size (none : Option Nat)).length := by
      rw [List.length_replicate]
      exact hbound
    have hwritten : (best.map fun i => (rankTable size best)[i]?) =
        ((List.range best.length).map some).map some :=
      map_getElem?_scatter hnodup hbound' (by rw [List.length_map, List.length_range])
    have hranks : ((List.range best.length).map some).map some =
        best.map fun i => some (best.idxOf? i) := by
      rw [← map_idxOf?_self hnodup, List.map_map]
      rfl
    exact List.map_inj_left.1 (hwritten.trans hranks)
  have hsize : (rankTable size best).length = size := by
    rw [rankTable, length_scatter, List.length_replicate]
  apply List.ext_getElem?
  intro i
  by_cases hi : i < size
  · rw [List.getElem?_map, List.getElem?_range hi, Option.map_some]
    by_cases hmem : i ∈ best
    · exact hranked i hmem
    · rw [rankTable, getElem?_scatter_of_not_mem hmem, List.getElem?_replicate, if_pos hi,
        List.idxOf?_eq_none_iff.2 hmem]
  · have hle := Nat.le_of_not_lt hi
    rw [List.getElem?_eq_none (hsize.symm ▸ hle), List.getElem?_eq_none]
    rw [List.length_map, List.length_range]
    exact hle

/-- What has a rank is parted from what has none, and the others stay as they stand. -/
theorem partByRank_map (rank? : Nat → Option Nat) (members : List (α × Nat)) :
    partByRank (members.map fun member => (member.1, rank? member.2)) =
      (members.filterMap fun member => (rank? member.2).map fun rank => (rank, member.1),
        (members.filter fun member => (rank? member.2).isNone).map Prod.fst) := by
  induction members with
  | nil => rfl
  | cons member members ih =>
    rw [List.map_cons, partByRank, ih]
    cases hrank : rank? member.2 with
    | none => simp [hrank]
    | some rank => simp [hrank]

/-- What has a rank are the first of the ranking, each with its place in it. -/
private theorem filterMap_idxOf?_perm (score : α → Nat) (most : Nat) (items : List α) :
    (items.zipIdx.filterMap fun member =>
      ((bestOf score most items).idxOf? member.2).map fun rank => (rank, member.1)).Perm
      (((rankByScore score items).take most).zipIdx.map fun entry => (entry.2, entry.1)) := by
  let ranked? (member : α × Nat) : Option (Nat × α) :=
    ((bestOf score most items).idxOf? member.2).map fun rank => (rank, member.1)
  have hdrop : ((ranking score items).drop most).filterMap ranked? = [] := by
    apply List.filterMap_eq_nil_iff.2
    intro member hmem
    have hkept := (drop_ranking_perm score most items).mem_iff.1 hmem
    have hnot : member.2 ∉ bestOf score most items := by
      simpa using (List.mem_filter.1 hkept).2
    exact Option.map_eq_none_iff.2 (List.idxOf?_eq_none_iff.2 hnot)
  have htake : ((ranking score items).take most).filterMap ranked? =
      ((ranking score items).take most).zipIdx.map fun entry => (entry.2, entry.1.1) := by
    have hranked : ∀ entry ∈ ((ranking score items).take most).zipIdx,
        ranked? entry.1 = some (entry.2, entry.1.1) := by
      intro entry hentry
      have hrank : (bestOf score most items)[entry.2]? = some entry.1.2 := by
        rw [bestOf, List.getElem?_map, List.mem_zipIdx_iff_getElem?.1 hentry]
        rfl
      exact Option.map_eq_some_iff.2
        ⟨entry.2, idxOf?_of_getElem? (nodup_bestOf score most items) hrank, rfl⟩
    have hfirst := List.zipIdx_map_fst 0 ((ranking score items).take most)
    have hall := List.filterMap_eq_map_iff_forall_eq_some.2 hranked
    rw [← hall, ← Function.comp_def ranked?, ← List.filterMap_map, hfirst]
  have hperm := (ranking_perm score items).filterMap ranked?
  rw [← List.take_append_drop most (ranking score items), List.filterMap_append, htake, hdrop,
    List.append_nil] at hperm
  rw [← map_fst_ranking, ← List.map_take, List.zipIdx_map, List.map_map]
  exact hperm.symm

theorem map_snd_mergeSort {ranked : List (Nat × α)} {best : List α}
    (hperm : ranked.Perm (best.zipIdx.map fun entry => (entry.2, entry.1))) :
    (ranked.mergeSort fun a b => a.1 ≤ b.1).map Prod.snd = best := by
  have hplaces : (best.zipIdx.map fun entry => (entry.2, entry.1)).Pairwise
      fun a b => a.1 < b.1 := by
    rw [List.pairwise_map]
    exact pairwise_zipIdx best
  rw [mergeSort_eq_of_key hperm hplaces, List.map_map]
  exact List.zipIdx_map_fst ..

end Table

section Select

variable (score : α → Nat) (most : Nat) (items : List α)

theorem selectByRank_eq : selectByRank score most items =
    ((rankByScore score items).take most, outside items (bestOf score most items)) := by
  have hbound : ∀ i ∈ bestOf score most items, i < items.length := by
    intro i hi
    obtain ⟨member, hmem, rfl⟩ := List.mem_map.1 hi
    exact (List.getElem?_eq_some_iff.1 (getElem?_of_mem_ranking (List.mem_of_mem_take hmem))).1
  have hzip : items.zip ((List.range items.length).map fun i =>
      (bestOf score most items).idxOf? i) =
      items.zipIdx.map fun member => (member.1, (bestOf score most items).idxOf? member.2) := by
    rw [List.zip_map_right, List.range_eq_range', List.zipIdx_eq_zip_range']
    rfl
  have hparts := partByRank_map (fun i => (bestOf score most items).idxOf? i) items.zipIdx
  have hnone : ∀ i, ((bestOf score most items).idxOf? i).isNone =
      decide (i ∉ bestOf score most items) := by
    intro i
    rw [Bool.eq_iff_iff, Option.isNone_iff_eq_none, List.idxOf?_eq_none_iff, decide_eq_true_eq]
  unfold selectByRank outside
  simp only [bestPositions_eq, rankTable_eq (nodup_bestOf score most items) hbound, hzip, hparts,
    map_snd_mergeSort (filterMap_idxOf?_perm score most items), hnone]

theorem selectByRank_perm :
    ((selectByRank score most items).1 ++ (selectByRank score most items).2).Perm items := by
  rw [selectByRank_eq]
  have hparts := (outside_bestOf_perm score most items).append_left
    ((rankByScore score items).take most)
  rw [List.take_append_drop] at hparts
  exact hparts.trans (rankByScore_perm ..)

theorem length_selectByRank : (selectByRank score most items).1.length = min most items.length := by
  rw [selectByRank_eq, List.length_take, (rankByScore_perm ..).length_eq]

theorem selectByRank_sublist : (selectByRank score most items).2.Sublist items := by
  rw [selectByRank_eq]
  exact outside_sublist ..

/-- What is selected goes by descending score and has the best scores; among equals what held of the
items in their order still holds. -/
theorem selectByRank_pairwise {items : List α} {R : α → α → Prop} (hR : items.Pairwise R) :
    ((selectByRank score most items).1.Pairwise
        fun a b => score b < score a ∨ score a = score b ∧ R a b) ∧
      ∀ a ∈ (selectByRank score most items).1, ∀ b ∈ (selectByRank score most items).2,
        score b < score a ∨ score a = score b ∧ R a b := by
  have hranked := (ranksStably_rankByScore score items).pairwise hR
  rw [← List.take_append_drop most (rankByScore score items), List.pairwise_append] at hranked
  rw [selectByRank_eq]
  refine ⟨hranked.1, fun a ha b hb => ?_⟩
  exact hranked.2.2 a ha b ((outside_bestOf_perm score most items).mem_iff.1 hb)

theorem selectByRank_descending (score : α → Nat) (most : Nat) (items : List α) :
    (selectByRank score most items).1.Pairwise (fun a b => score b ≤ score a) ∧
      ∀ a ∈ (selectByRank score most items).1, ∀ b ∈ (selectByRank score most items).2,
        score b ≤ score a := by
  have hall : items.Pairwise fun _ _ => True := List.pairwise_of_forall fun _ _ => trivial
  obtain ⟨hselected, hleft⟩ := selectByRank_pairwise score most hall
  refine ⟨hselected.imp ?_, fun a ha b hb => ?_⟩
  · omega
  · have hab := hleft a ha b hb
    omega

end Select

def SignedOperation.score (now : Timestamp) (op : SignedOperation) : Nat :=
  priorityScore op.operation now

section Queue

variable (most : Nat) (now : Timestamp) (operations : List SignedOperation)

theorem rankByPriority_eq :
    rankByPriority now operations = ranking (SignedOperation.score now) operations := rfl

theorem topByPriority_eq : topByPriority most now operations =
    bestOf (SignedOperation.score now) most operations := rfl

theorem splitByPriority_eq : PendingQueue.splitByPriority most now operations =
    selectByRank (SignedOperation.score now) most operations := by
  have hleft : ((ranking (SignedOperation.score now) operations).drop most).mergeSort
      (fun a b => a.2 ≤ b.2) = operations.zipIdx.filter fun member =>
        member.2 ∉ bestOf (SignedOperation.score now) most operations :=
    mergeSort_eq_of_key (drop_ranking_perm ..) ((pairwise_zipIdx operations).filter _)
  rw [selectByRank_eq, PendingQueue.splitByPriority, rankByPriority_eq, hleft, List.map_take,
    map_fst_ranking]
  rfl

end Queue

namespace PendingQueue

/-- What a queue in order of priority gives is the front of its operations as they are ranked, and
the others stay as they stand. -/
theorem take_of_priority {q : PendingQueue} (h : q.order = .priority) (most : Nat)
    (now : Timestamp) : q.take most now =
      ((selectByRank (SignedOperation.score now) most q.operations).1,
        { q with
          operations := (selectByRank (SignedOperation.score now) most q.operations).2 }) := by
  rw [take, h]
  simp only [splitByPriority_eq]

/-- A queue in order of priority gives the first of its operations as they are sorted, and keeps
those at other positions in their order. Sorting them is the one way to go by descending score and
to keep the order of equals; sorting scores with positions, in whatever way, and the table of ranks
come to the same. -/
theorem take_selects_best {q : PendingQueue} (h : q.order = .priority) (most : Nat)
    (now : Timestamp) :
    (q.take most now).1 = (prioritySort now q.operations).take (min most q.size) ∧
      (q.take most now).1.length = min most q.size ∧
      (∀ ranked, RanksStably (SignedOperation.score now) q.operations ranked ↔
        ranked = prioritySort now q.operations) ∧
      (∀ sorted : List (Nat × Nat), sorted.Perm (scoreKeys (SignedOperation.score now) q.operations) →
        sorted.Pairwise (fun a b => outranks a b = true) →
        (sorted.take most).map Prod.snd = topByPriority most now q.operations) ∧
      ((topByPriority most now q.operations).map fun i => q.operations[i]?) =
        (q.take most now).1.map some ∧
      (topByPriority most now q.operations).Nodup ∧
      (q.take most now).2 =
        { q with operations := outside q.operations (topByPriority most now q.operations) } ∧
      ((q.take most now).1 ++ (q.take most now).2.operations).Perm q.operations ∧
      selectByRank (SignedOperation.score now) most q.operations =
        ((q.take most now).1, (q.take most now).2.operations) := by
  have hselect := selectByRank_eq (SignedOperation.score now) most q.operations
  have htake := take_of_priority h most now
  have hfront : (q.take most now).1 = (prioritySort now q.operations).take most := by
    rw [htake, hselect]
    rfl
  have hlength : (prioritySort now q.operations).length = q.size :=
    (rankByScore_perm ..).length_eq
  refine ⟨?_, q.length_take most now, fun ranked => ?_, ?_, ?_, ?_, ?_, q.take_perm most now, ?_⟩
  · rw [hfront, ← hlength, List.take_eq_take_iff]
    omega
  · exact ⟨fun hranked => hranked.eq (ranksStably_rankByScore ..),
      fun heq => heq ▸ ranksStably_rankByScore ..⟩
  · intro sorted hperm hsorted
    rw [List.map_take, map_snd_of_sorted hperm hsorted, ← List.map_take]
    rfl
  · rw [hfront, topByPriority_eq, map_getElem?_bestOf]
    rfl
  · rw [topByPriority_eq]
    exact nodup_bestOf ..
  · rw [htake, hselect]
    rfl
  · rw [htake]

/-- Payments of which two are equal and two others have the same score. -/
def crowdedQueue : PendingQueue :=
  { operations := [payment 1 5 false, payment 2 40 false, payment 1 5 false, payment 3 41 false]
    capacity := 10
    order := .priority }

/-- Two payments of the same score come before two equal ones, of which the first is taken and the
second stays. -/
theorem take_selects_best_of_crowded :
    crowdedQueue.order = .priority ∧
      (crowdedQueue.take 3 .epoch).1 =
        [payment 2 40 false, payment 3 41 false, payment 1 5 false] ∧
      (crowdedQueue.take 3 .epoch).2.operations = [payment 1 5 false] := by
  obtain ⟨hfront, -, -, -, -, -, hrest, -⟩ := take_selects_best (q := crowdedQueue) rfl 3 .epoch
  refine ⟨rfl, hfront.trans ?_, ?_⟩
  · cbv
  · rw [hrest]
    cbv

end PendingQueue

end Settlement
