import Mathlib.Data.List.Nodup
import Settlement.Batch.Priority

namespace Settlement

variable {α β : Type} {score : α → Nat}

/-- By descending score, and items of equal score in the order in which they are given. No other
list does both, so how it is sorted does not matter. -/
structure RanksStably (score : α → Nat) (items ranked : List α) : Prop where
  descending : ranked.Pairwise fun a b => score b ≤ score a
  stable : ∀ s, (ranked.filter fun a => score a = s) = items.filter fun a => score a = s

namespace RanksStably

variable {items ranked : List α}

theorem mem_iff (h : RanksStably score items ranked) {a : α} : a ∈ ranked ↔ a ∈ items := by
  have hfilter := h.stable (score a)
  have hmem : a ∈ (ranked.filter fun b => score b = score a) ↔
      a ∈ items.filter fun b => score b = score a := by rw [hfilter]
  simpa using hmem

theorem pairwise {R : α → α → Prop} (h : RanksStably score items ranked)
    (hR : items.Pairwise R) :
    ranked.Pairwise fun a b => score b < score a ∨ score a = score b ∧ R a b := by
  rw [List.pairwise_iff_forall_sublist]
  intro a b hab
  have hle : score b ≤ score a := List.pairwise_iff_forall_sublist.1 h.descending hab
  rcases Nat.lt_or_eq_of_le hle with hlt | heq
  · exact .inl hlt
  · refine .inr ⟨heq.symm, ?_⟩
    have hfiltered : [a, b].Sublist (items.filter fun c => score c = score a) := by
      rw [← h.stable]
      have hkept := hab.filter fun c => score c = score a
      simpa [heq] using hkept
    exact List.pairwise_iff_forall_sublist.1 hR (hfiltered.trans List.filter_sublist)

private theorem score_eq {a b : α} {left right : List α} (h : RanksStably score items (a :: left))
    (h' : RanksStably score items (b :: right)) : score a = score b := by
  have ha : a ∈ b :: right := h'.mem_iff.2 (h.mem_iff.1 (List.mem_cons_self ..))
  have hb : b ∈ a :: left := h.mem_iff.2 (h'.mem_iff.1 (List.mem_cons_self ..))
  apply Nat.le_antisymm
  · rcases List.mem_cons.1 ha with rfl | hmem
    · exact Nat.le_refl _
    · exact List.rel_of_pairwise_cons h'.descending hmem
  · rcases List.mem_cons.1 hb with rfl | hmem
    · exact Nat.le_refl _
    · exact List.rel_of_pairwise_cons h.descending hmem

/-- There is only one such ranking, by induction on its length: its head is the first of the
best. -/
theorem eq {other : List α} (h : RanksStably score items ranked)
    (h' : RanksStably score items other) : ranked = other := by
  induction ranked generalizing other items with
  | nil =>
    cases other with
    | nil => rfl
    | cons b right => exact absurd (h.mem_iff.2 (h'.mem_iff.1 (List.mem_cons_self ..))) List.not_mem_nil
  | cons a left ih =>
    cases other with
    | nil => exact absurd (h'.mem_iff.2 (h.mem_iff.1 (List.mem_cons_self ..))) List.not_mem_nil
    | cons b right =>
      have hscore := score_eq h h'
      have hfilters : ∀ s, ((a :: left).filter fun c => score c = s) =
          (b :: right).filter fun c => score c = s := fun s => (h.stable s).trans (h'.stable s).symm
      have hhead : a = b := by
        have hfilter := hfilters (score a)
        rw [List.filter_cons_of_pos (by simp), List.filter_cons_of_pos (by simp [hscore])] at hfilter
        exact (List.cons.inj hfilter).1
      subst hhead
      have hleft : RanksStably score left left := ⟨h.descending.of_cons, fun _ => rfl⟩
      have hright : RanksStably score left right := by
        refine ⟨h'.descending.of_cons, fun s => ?_⟩
        have hfilter := hfilters s
        by_cases hs : score a = s
        · rw [List.filter_cons_of_pos (by simp [hs]), List.filter_cons_of_pos (by simp [hs])] at hfilter
          exact (List.cons.inj hfilter).2.symm
        · rw [List.filter_cons_of_neg (by simp [hs]), List.filter_cons_of_neg (by simp [hs])] at hfilter
          exact hfilter.symm
      rw [ih hleft hright]

/-- Items that are ranked already, and no worse than the others, stay in front of them. -/
theorem append {front back : List α} (h : RanksStably score back ranked)
    (hfront : front.Pairwise fun a b => score b ≤ score a)
    (hbest : ∀ a ∈ front, ∀ b ∈ back, score b ≤ score a) :
    RanksStably score (front ++ back) (front ++ ranked) := by
  constructor
  · rw [List.pairwise_append]
    exact ⟨hfront, h.descending, fun a ha b hb => hbest a ha b (h.mem_iff.1 hb)⟩
  · intro s
    rw [List.filter_append, List.filter_append, h.stable]

end RanksStably

/-- Ranking is a stable sort of the library, which any of its laws can be used for. -/
theorem rankByScore_eq_mergeSort (score : α → Nat) (items : List α) :
    rankByScore score items = items.mergeSort fun a b => score b ≤ score a := by
  have hsort := List.map_mergeSort (r := fun a b => decide (score b ≤ score a))
    (s := fun a b => decide (b.1 ≤ a.1)) (f := fun item => (score item, item)) (l := items)
    fun _ _ _ _ => rfl
  rw [rankByScore, ← hsort, List.map_map]
  exact List.map_id _

theorem rankByScore_perm (score : α → Nat) (items : List α) :
    (rankByScore score items).Perm items := by
  rw [rankByScore_eq_mergeSort]
  exact List.mergeSort_perm ..

theorem ranksStably_rankByScore (score : α → Nat) (items : List α) :
    RanksStably score items (rankByScore score items) := by
  have htrans : ∀ a b c : α, decide (score b ≤ score a) = true → decide (score c ≤ score b) = true →
      decide (score c ≤ score a) = true := by
    intro a b c hab hbc
    simp only [decide_eq_true_eq] at hab hbc ⊢
    exact Nat.le_trans hbc hab
  have htotal : ∀ a b : α, (decide (score b ≤ score a) || decide (score a ≤ score b)) = true := by
    intro a b
    simp only [Bool.or_eq_true, decide_eq_true_eq]
    exact Nat.le_total ..
  have hperm := rankByScore_perm score items
  rw [rankByScore_eq_mergeSort] at hperm ⊢
  constructor
  · exact (List.pairwise_mergeSort htrans htotal items).imp fun h => of_decide_eq_true h
  · intro s
    -- items of one score are sorted as they stand, so sorting keeps them as a sublist
    have hsorted : (items.filter fun a => score a = s).Pairwise
        fun a b => decide (score b ≤ score a) = true := by
      apply List.pairwise_of_forall_mem_list
      intro a ha b hb
      have ha : score a = s := of_decide_eq_true (List.mem_filter.1 ha).2
      have hb : score b = s := of_decide_eq_true (List.mem_filter.1 hb).2
      exact decide_eq_true (by omega)
    have hsub := (List.sublist_mergeSort htrans htotal hsorted List.filter_sublist).filter
      fun a => score a = s
    rw [List.filter_filter] at hsub
    simp only [Bool.and_self] at hsub
    exact (hsub.eq_of_length (hperm.filter _).length_eq.symm).symm

theorem map_rankByScore (score : α → Nat) (f : β → α) (items : List β) :
    (rankByScore (fun item => score (f item)) items).map f = rankByScore score (items.map f) := by
  rw [rankByScore_eq_mergeSort, rankByScore_eq_mergeSort]
  exact List.map_mergeSort fun _ _ _ _ => rfl

theorem mergeSort_eq_of_key {key : α → Nat} {items sorted : List α} (hperm : items.Perm sorted)
    (hsorted : sorted.Pairwise fun a b => key a < key b) :
    (items.mergeSort fun a b => key a ≤ key b) = sorted := by
  have hpairwise : (items.mergeSort fun a b => key a ≤ key b).Pairwise
      fun a b => decide (key a ≤ key b) = true := by
    apply List.pairwise_mergeSort
    · intro a b c hab hbc
      simp only [decide_eq_true_eq] at hab hbc ⊢
      exact Nat.le_trans hab hbc
    · intro a b
      simp only [Bool.or_eq_true, decide_eq_true_eq]
      exact Nat.le_total ..
  have hkeys : (sorted.map key).Nodup := by
    rw [List.Nodup, List.pairwise_map]
    exact hsorted.imp Nat.ne_of_lt
  have hperm' := (List.mergeSort_perm items fun a b => key a ≤ key b).trans hperm
  apply List.Perm.eq_of_pairwise _ hpairwise
    (hsorted.imp fun h => decide_eq_true (Nat.le_of_lt h)) hperm'
  intro a b ha hb hab hba
  have hkey := Nat.le_antisymm (of_decide_eq_true hab) (of_decide_eq_true hba)
  exact List.inj_on_of_nodup_map hkeys (hperm'.mem_iff.1 ha) hb hkey

/-- The items with their positions, by descending score. The positions tell apart items that are
alike. -/
def ranking (score : α → Nat) (items : List α) : List (α × Nat) :=
  rankByScore (fun member => score member.1) items.zipIdx

/-- The items that stand at other positions than these, in their order. -/
def outside (items : List α) (positions : List Nat) : List α :=
  (items.zipIdx.filter fun member => member.2 ∉ positions).map Prod.fst

section Positions

variable {score : α → Nat} {items : List α}

theorem ranking_perm (score : α → Nat) (items : List α) :
    (ranking score items).Perm items.zipIdx := rankByScore_perm ..

theorem map_fst_ranking (score : α → Nat) (items : List α) :
    (ranking score items).map Prod.fst = rankByScore score items := by
  rw [ranking, map_rankByScore score Prod.fst, List.zipIdx_map_fst]

theorem getElem?_of_mem_ranking {member : α × Nat} (h : member ∈ ranking score items) :
    items[member.2]? = some member.1 :=
  List.mem_zipIdx_iff_getElem?.1 ((ranking_perm score items).mem_iff.1 h)

theorem pairwise_zipIdx (items : List α) : items.zipIdx.Pairwise fun a b => a.2 < b.2 := by
  rw [← List.pairwise_map, List.zipIdx_map_snd]
  exact List.pairwise_lt_range'

theorem nodup_map_snd_ranking (score : α → Nat) (items : List α) :
    ((ranking score items).map Prod.snd).Nodup := by
  have hperm := (ranking_perm score items).map Prod.snd
  rw [List.zipIdx_map_snd] at hperm
  exact hperm.nodup_iff.2 List.nodup_range'

/-- The positions of the best `most` items, from the best on. -/
def bestOf (score : α → Nat) (most : Nat) (items : List α) : List Nat :=
  ((ranking score items).take most).map Prod.snd

theorem nodup_bestOf (score : α → Nat) (most : Nat) (items : List α) :
    (bestOf score most items).Nodup := by
  rw [bestOf, List.map_take]
  exact (nodup_map_snd_ranking score items).sublist (List.take_sublist ..)

theorem map_getElem?_bestOf (score : α → Nat) (most : Nat) (items : List α) :
    ((bestOf score most items).map fun i => items[i]?) =
      ((rankByScore score items).take most).map some := by
  rw [← map_fst_ranking, ← List.map_take, bestOf, List.map_map, List.map_map]
  apply List.map_congr_left
  intro member hmem
  exact getElem?_of_mem_ranking (List.mem_of_mem_take hmem)

theorem drop_ranking_perm (score : α → Nat) (most : Nat) (items : List α) :
    ((ranking score items).drop most).Perm
      (items.zipIdx.filter fun member => member.2 ∉ bestOf score most items) := by
  have hnodup := nodup_map_snd_ranking score items
  rw [← List.take_append_drop most (ranking score items), List.map_append,
    List.nodup_append] at hnodup
  have htake : (((ranking score items).take most).filter
      fun member => member.2 ∉ bestOf score most items) = [] := by
    apply List.filter_eq_nil_iff.2
    intro member hmem
    have hbest : member.2 ∈ bestOf score most items := List.mem_map_of_mem hmem
    simpa using hbest
  have hdrop : (((ranking score items).drop most).filter
      fun member => member.2 ∉ bestOf score most items) = (ranking score items).drop most := by
    apply List.filter_eq_self.2
    intro member hmem
    have hnot : member.2 ∉ bestOf score most items := fun hbest =>
      hnodup.2.2 _ hbest _ (List.mem_map_of_mem hmem) rfl
    simpa using hnot
  have hperm := (ranking_perm score items).filter
    fun member => member.2 ∉ bestOf score most items
  rw [← List.take_append_drop most (ranking score items), List.filter_append, htake,
    List.nil_append, hdrop] at hperm
  exact hperm

theorem outside_bestOf_perm (score : α → Nat) (most : Nat) (items : List α) :
    (outside items (bestOf score most items)).Perm ((rankByScore score items).drop most) := by
  have hperm := (drop_ranking_perm score most items).map Prod.fst
  rw [List.map_drop, map_fst_ranking] at hperm
  exact hperm.symm

theorem outside_sublist (items : List α) (positions : List Nat) :
    (outside items positions).Sublist items := by
  have hsublist := (List.filter_sublist (l := items.zipIdx)
    (p := fun member => member.2 ∉ positions)).map Prod.fst
  rw [List.zipIdx_map_fst] at hsublist
  exact hsublist

end Positions

end Settlement
