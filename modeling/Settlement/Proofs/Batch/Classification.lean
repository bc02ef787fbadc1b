import Settlement.Batch.Scatter
import Settlement.Proofs.Batch.Alignment

namespace Settlement

/-- The operations of the group are those that stand at its positions in the batch, in the same
order. -/
structure OperationGroup.DrawnFrom (g : OperationGroup) (operations : List SignedOperation) :
    Prop where
  increasing : g.indexMap.Pairwise (· < ·)
  inputs : g.operations.map some = g.indexMap.map fun i => operations[i]?

theorem OperationGroup.drawnFrom_filter (kind : OperationKind) (operations : List SignedOperation)
    (p : SignedOperation × Nat → Bool) :
    (⟨kind, operations.zipIdx.filter p⟩ : OperationGroup).DrawnFrom operations := by
  constructor
  · have hall : (operations.zipIdx.map Prod.snd).Pairwise (· < ·) := by
      rw [List.zipIdx_map_snd]
      exact List.pairwise_lt_range'
    exact hall.sublist (List.filter_sublist.map Prod.snd)
  · unfold OperationGroup.operations OperationGroup.indexMap
    rw [List.map_map, List.map_map]
    apply List.map_congr_left
    intro member hmem
    exact (List.mem_zipIdx_iff_getElem?.1 (List.mem_filter.1 hmem).1).symm

namespace Partition

/-- The groups share out a batch, and nothing is lost: every position is in one of them, and every
operation in the group of its kind. Without the era path all operations are strong. -/
structure Splits (p : Partition) (eraPath : Bool) (operations : List SignedOperation) : Prop where
  weak : p.weak.DrawnFrom operations
  strong : p.strong.DrawnFrom operations
  disjoint : ∀ i ∈ p.weak.indexMap, i ∉ p.strong.indexMap
  covering : (p.weak.indexMap ++ p.strong.indexMap).Perm (List.range operations.length)
  weakKind : p.weak.kind = .weak ∧ ∀ op ∈ p.weak.operations, eraPath = true ∧ op.kind = .weak
  strongKind : p.strong.kind = .strong ∧
    ∀ op ∈ p.strong.operations, eraPath = false ∨ op.kind = .strong

/-- Results for a batch of this size that hold those of each group at its positions, in order. There
is one list at most that does. -/
structure Assembles (p : Partition) (size : Nat) (weakResults strongResults results : List Bool) :
    Prop where
  length : results.length = size
  weak : (p.weak.indexMap.map fun i => results[i]?) = weakResults.map some
  strong : (p.strong.indexMap.map fun i => results[i]?) = strongResults.map some

/-- The numbers of results and of operations differ in a group; the weak one is looked at first. -/
inductive Misaligned (p : Partition) (weakResults strongResults : List Bool) : Error → Prop
  | weak (hweak : weakResults.length ≠ p.weak.size) :
    Misaligned p weakResults strongResults (.lengthMismatch p.weak.size weakResults.length)
  | strong (hweak : weakResults.length = p.weak.size)
      (hstrong : strongResults.length ≠ p.strong.size) :
    Misaligned p weakResults strongResults (.lengthMismatch p.strong.size strongResults.length)

theorem splits_classify (eraPath : Bool) (operations : List SignedOperation) :
    (classify eraPath operations).Splits eraPath operations := by
  have hperm := List.filter_append_perm (fun member : SignedOperation × Nat =>
    eraPath && member.1.isPeriodBound) operations.zipIdx
  have hpositions := hperm.map Prod.snd
  rw [List.map_append, List.zipIdx_map_snd, ← List.range_eq_range'] at hpositions
  have hnodup := hpositions.nodup_iff.2 List.nodup_range
  constructor
  case weak => exact OperationGroup.drawnFrom_filter ..
  case strong => exact OperationGroup.drawnFrom_filter ..
  case disjoint =>
    intro i hweak hstrong
    exact (List.nodup_append.1 hnodup).2.2 i hweak i hstrong rfl
  case covering => exact hpositions
  case weakKind =>
    refine ⟨rfl, fun op hop => ?_⟩
    obtain ⟨member, hmem, rfl⟩ := List.mem_map.1 hop
    have hboth := (Bool.and_eq_true_iff).1 (List.mem_filter.1 hmem).2
    exact ⟨hboth.1, if_pos hboth.2⟩
  case strongKind =>
    refine ⟨rfl, fun op hop => ?_⟩
    obtain ⟨member, hmem, rfl⟩ := List.mem_map.1 hop
    have hnot := (List.mem_filter.1 hmem).2
    cases eraPath with
    | false => exact .inl rfl
    | true =>
      have hfree : member.1.isPeriodBound = false := by simpa using hnot
      exact .inr (if_neg (by simp [hfree]))

private theorem foldl_add (eraPath : Bool) (members : List (SignedOperation × Nat))
    (p : Partition) :
    members.foldl (add eraPath) p =
      { weak := { p.weak with
          members := p.weak.members ++
            members.filter fun member => eraPath && member.1.isPeriodBound }
        strong := { p.strong with
          members := p.strong.members ++
            members.filter fun member => !(eraPath && member.1.isPeriodBound) } } := by
  induction members generalizing p with
  | nil => simp
  | cons member members ih =>
    rw [List.foldl_cons, ih]
    cases hbound : member.1.isPeriodBound <;> cases eraPath <;>
      simp [add, OperationGroup.add, SignedOperation.kind, hbound]

theorem ofOperations_eq_classify (eraPath : Bool) (operations : List SignedOperation) :
    ofOperations eraPath operations = classify eraPath operations :=
  foldl_add eraPath operations.zipIdx _

namespace Splits

variable {p : Partition} {eraPath : Bool} {operations : List SignedOperation}
  {weakResults strongResults : List Bool}

theorem total_eq (h : p.Splits eraPath operations) : p.total = operations.length := by
  have hlength := h.covering.length_eq
  rw [List.length_append, OperationGroup.indexMap, OperationGroup.indexMap, List.length_map,
    List.length_map, List.length_range] at hlength
  exact hlength

theorem lt_length (h : p.Splits eraPath operations) {i : Nat}
    (hmem : i ∈ p.weak.indexMap ++ p.strong.indexMap) : i < operations.length :=
  List.mem_range.1 (h.covering.mem_iff.1 hmem)

/-- Every position is in a group, so the results of the groups leave no choice. -/
theorem assembles_unique (h : p.Splits eraPath operations) {results other : List Bool}
    (hresults : p.Assembles operations.length weakResults strongResults results)
    (hother : p.Assembles operations.length weakResults strongResults other) :
    results = other := by
  have hweak := List.map_inj_left.1 (hresults.weak.trans hother.weak.symm)
  have hstrong := List.map_inj_left.1 (hresults.strong.trans hother.strong.symm)
  apply List.ext_getElem?
  intro i
  by_cases hi : i < operations.length
  · have hmem := h.covering.mem_iff.2 (List.mem_range.2 hi)
    exact (List.mem_append.1 hmem).elim (hweak i) (hstrong i)
  · have hle := Nat.le_of_not_lt hi
    rw [List.getElem?_eq_none (hresults.length.symm ▸ hle),
      List.getElem?_eq_none (hother.length.symm ▸ hle)]

theorem assembles_scatter (h : p.Splits eraPath operations)
    (hweak : weakResults.length = p.weak.size) (hstrong : strongResults.length = p.strong.size)
    {entries : List Bool} (hentries : entries.length = operations.length) :
    p.Assembles operations.length weakResults strongResults
      (scatter (scatter entries p.weak.indexMap weakResults) p.strong.indexMap strongResults) := by
  have hwritten : (scatter entries p.weak.indexMap weakResults).length = operations.length :=
    (length_scatter ..).trans hentries
  constructor
  · exact (length_scatter ..).trans hwritten
  · have hkept : ∀ i ∈ p.weak.indexMap,
        (scatter (scatter entries p.weak.indexMap weakResults) p.strong.indexMap
          strongResults)[i]? = (scatter entries p.weak.indexMap weakResults)[i]? :=
      fun i hi => getElem?_scatter_of_not_mem (h.disjoint i hi) ..
    rw [List.map_congr_left hkept]
    apply map_getElem?_scatter (h.weak.increasing.imp Nat.ne_of_lt)
    · intro i hi
      rw [hentries]
      exact h.lt_length (List.mem_append_left _ hi)
    · rw [hweak]
      exact (List.length_map ..).symm
  · apply map_getElem?_scatter (h.strong.increasing.imp Nat.ne_of_lt)
    · intro i hi
      rw [hwritten]
      exact h.lt_length (List.mem_append_right _ hi)
    · rw [hstrong]
      exact (List.length_map ..).symm

end Splits

private theorem map_getElem?_positions {α β : Type} (p : α → Bool) {items : List α}
    {results : List β} (hlength : results.length = items.length) (start : Nat) :
    ((positions p items start).map fun i => results[i - start]?) =
      (((items.zip results).filter fun entry => p entry.1).map Prod.snd).map some := by
  induction items generalizing results start with
  | nil => rfl
  | cons item items ih =>
    cases results with
    | nil => cases hlength
    | cons result results =>
      have htail := ih (Nat.succ.inj hlength) (start + 1)
      have hshift : ((positions p items (start + 1)).map fun i => (result :: results)[i - start]?) =
          (positions p items (start + 1)).map fun i => results[i - (start + 1)]? := by
        apply List.map_congr_left
        intro i hi
        obtain ⟨member, hmember, rfl⟩ := List.mem_map.1 hi
        have hle := (List.mem_zipIdx (List.mem_filter.1 hmember).1).1
        obtain ⟨k, hk⟩ := Nat.exists_eq_add_of_le hle
        rw [hk, Nat.add_sub_cancel_left, Nat.add_assoc, Nat.add_sub_cancel_left, Nat.add_comm 1 k,
          List.getElem?_cons_succ]
      by_cases hitem : p item = true
      · have hpositions : positions p (item :: items) start =
            start :: positions p items (start + 1) := by
          simp [positions, List.zipIdx_cons, hitem]
        rw [hpositions, List.map_cons, hshift, htail, Nat.sub_self]
        simp [hitem]
      · have hpositions : positions p (item :: items) start = positions p items (start + 1) := by
          simp [positions, List.zipIdx_cons, hitem]
        rw [hpositions, hshift, htail]
        simp [hitem]

theorem assembles_of_reassembles {policy : BatchPolicy} {operations : List SignedOperation}
    {weakResults strongResults results : List Bool}
    (h : Reassembles policy.isWeak operations weakResults strongResults results)
    (hweak : weakResults.length = (policy.weak operations).length)
    (hstrong : strongResults.length = (policy.strong operations).length) :
    (classify policy.eraPathEnabled operations).Assembles operations.length weakResults
      strongResults results := by
  constructor
  · exact h.length
  · have hlookup := map_getElem?_positions policy.isWeak h.length 0
    have hmarked : ((operations.filter policy.isWeak).zip weakResults).map Prod.snd = weakResults :=
      List.map_snd_zip (Nat.le_of_eq hweak)
    rw [h.marked, hmarked] at hlookup
    exact hlookup
  · have hlookup := map_getElem?_positions (fun op => !policy.isWeak op) h.length 0
    have hothers : ((operations.filter fun op => !policy.isWeak op).zip strongResults).map Prod.snd =
        strongResults := List.map_snd_zip (Nat.le_of_eq hstrong)
    rw [h.others, hothers] at hlookup
    exact hlookup

section Checks

variable {p : Partition} {weakResults strongResults : List Bool}

/-- Results fit both groups in number, or there is an error that says which one they do not fit. -/
theorem aligned_or_misaligned (p : Partition) (weakResults strongResults : List Bool) :
    (weakResults.length = p.weak.size ∧ strongResults.length = p.strong.size) ∨
      ∃ e, p.Misaligned weakResults strongResults e := by
  by_cases hweak : weakResults.length = p.weak.size
  · by_cases hstrong : strongResults.length = p.strong.size
    · exact .inl ⟨hweak, hstrong⟩
    · exact .inr ⟨_, .strong hweak hstrong⟩
  · exact .inr ⟨_, .weak hweak⟩

theorem reassemble_of_misaligned {e : Error} (h : p.Misaligned weakResults strongResults e) :
    p.reassemble weakResults strongResults = .error e := by
  cases h with
  | weak hweak =>
    simp only [reassemble, require, if_neg hweak]
    rfl
  | strong hweak hstrong =>
    simp only [reassemble, require, if_pos hweak, if_neg hstrong]
    rfl

/-- Results that do not fit are not written over a list either, with the same error. -/
theorem writeOver_of_misaligned {e : Error} (h : p.Misaligned weakResults strongResults e)
    (entries : List Bool) : p.writeOver entries weakResults strongResults = .error e := by
  cases h with
  | weak hweak =>
    simp only [writeOver, require, if_neg hweak]
    rfl
  | strong hweak hstrong =>
    simp only [writeOver, require, if_pos hweak, if_neg hstrong]
    rfl

theorem writeOver_of_aligned (hweak : weakResults.length = p.weak.size)
    (hstrong : strongResults.length = p.strong.size) (entries : List Bool) :
    p.writeOver entries weakResults strongResults =
      .ok (scatter (scatter entries p.weak.indexMap weakResults) p.strong.indexMap
        strongResults) := by
  simp only [writeOver, require, if_pos hweak, if_pos hstrong]
  rfl

end Checks

theorem exists_assembles (eraPath : Bool) (operations : List SignedOperation)
    {weakResults strongResults : List Bool}
    (hweak : weakResults.length = (classify eraPath operations).weak.size)
    (hstrong : strongResults.length = (classify eraPath operations).strong.size) :
    ∃ results, (classify eraPath operations).reassemble weakResults strongResults = .ok results ∧
      (classify eraPath operations).Assembles operations.length weakResults strongResults
        results := by
  -- of a policy only the era path matters here
  let policy : BatchPolicy := { eraPathEnabled := eraPath }
  have hweak' : weakResults.length = (policy.weak operations).length := by
    rw [hweak, ← weak_operations]
    exact (List.length_map ..).symm
  have hstrong' : strongResults.length = (policy.strong operations).length := by
    rw [hstrong, ← strong_operations]
    exact (List.length_map ..).symm
  obtain ⟨results, hok, hreassembles⟩ := exists_reassemble policy operations hweak' hstrong'
  exact ⟨results, hok, assembles_of_reassembles hreassembles hweak' hstrong'⟩

theorem reassemble_error_iff (eraPath : Bool) (operations : List SignedOperation)
    (weakResults strongResults : List Bool) (e : Error) :
    (classify eraPath operations).reassemble weakResults strongResults = .error e ↔
      (classify eraPath operations).Misaligned weakResults strongResults e := by
  refine ⟨fun herror => ?_, reassemble_of_misaligned⟩
  rcases aligned_or_misaligned _ weakResults strongResults with ⟨hweak, hstrong⟩ | ⟨e', hmis⟩
  · obtain ⟨results, hok, -⟩ := exists_assembles eraPath operations hweak hstrong
    rw [hok] at herror
    cases herror
  · rw [reassemble_of_misaligned hmis] at herror
    cases herror
    exact hmis

/-- Whatever was in the list that results are written over, they come out as merging puts them
together: no entry of the list is left as it was. -/
theorem writeOver_of_assembles {eraPath : Bool} {operations : List SignedOperation}
    {weakResults strongResults results entries : List Bool}
    (hweak : weakResults.length = (classify eraPath operations).weak.size)
    (hstrong : strongResults.length = (classify eraPath operations).strong.size)
    (hresults : (classify eraPath operations).Assembles operations.length weakResults strongResults
      results)
    (hentries : entries.length = operations.length) :
    (classify eraPath operations).writeOver entries weakResults strongResults = .ok results := by
  have hsplits := splits_classify eraPath operations
  rw [writeOver_of_aligned hweak hstrong, hsplits.assembles_unique hresults
    (hsplits.assembles_scatter hweak hstrong hentries)]

/-- Writing the results over a prepared list comes to the same as going through the batch. -/
theorem assemble_eq_reassemble (eraPath : Bool) (operations : List SignedOperation)
    (weakResults strongResults : List Bool) :
    (classify eraPath operations).assemble weakResults strongResults =
      (classify eraPath operations).reassemble weakResults strongResults := by
  rcases aligned_or_misaligned (classify eraPath operations) weakResults strongResults with
    ⟨hweak, hstrong⟩ | ⟨e, hmis⟩
  · obtain ⟨results, hok, hresults⟩ := exists_assembles eraPath operations hweak hstrong
    have hprepared : (List.replicate (classify eraPath operations).total false).length =
        operations.length := by
      rw [List.length_replicate]
      exact (splits_classify eraPath operations).total_eq
    rw [hok]
    exact writeOver_of_assembles hweak hstrong hresults hprepared
  · rw [reassemble_of_misaligned hmis]
    exact writeOver_of_misaligned hmis _

end Partition

/-- The groups of a batch are what filling them operation by operation gives; they have every
position once, each in order and with the operation that stands there. Results that do not fit the
groups in number are refused, and that alone. Others are put together in the only way there is,
whatever was in the list that they are written over. -/
theorem classify_lossless (eraPath : Bool) (operations : List SignedOperation) :
    let p := classify eraPath operations
    Partition.ofOperations eraPath operations = p ∧ p.Splits eraPath operations ∧
      ∀ weakResults strongResults,
        p.assemble weakResults strongResults = p.reassemble weakResults strongResults ∧
        (∀ e, p.reassemble weakResults strongResults = .error e ↔
          p.Misaligned weakResults strongResults e) ∧
        (weakResults.length = p.weak.size → strongResults.length = p.strong.size →
          ∃ results, p.reassemble weakResults strongResults = .ok results ∧
            (∀ other, p.Assembles operations.length weakResults strongResults other ↔
              other = results) ∧
            ∀ entries, entries.length = operations.length →
              p.writeOver entries weakResults strongResults = .ok results) := by
  intro p
  have hsplits : p.Splits eraPath operations := Partition.splits_classify eraPath operations
  refine ⟨Partition.ofOperations_eq_classify eraPath operations, hsplits, ?_⟩
  intro weakResults strongResults
  refine ⟨Partition.assemble_eq_reassemble .., Partition.reassemble_error_iff _ _ _ _,
    fun hweak hstrong => ?_⟩
  obtain ⟨results, hok, hresults⟩ := Partition.exists_assembles eraPath operations hweak hstrong
  refine ⟨results, hok, fun other => ⟨fun hother => ?_, fun heq => heq ▸ hresults⟩, ?_⟩
  · exact hsplits.assembles_unique hother hresults
  · exact fun entries hentries => Partition.writeOver_of_assembles hweak hstrong hresults hentries

/-- Two weak operations between two strong ones. Results written over a list of `true` leave none of
it. -/
theorem classify_lossless_of_mixed :
    (classify true mixedBatch.operations).weak.indexMap = [1, 2] ∧
      (classify true mixedBatch.operations).reassemble [true, false] [false, true] =
        .ok [false, true, false, true] ∧
      (classify true mixedBatch.operations).writeOver [true, true, true, true] [true, false]
        [false, true] = .ok [false, true, false, true] := by
  obtain ⟨-, -, hresults⟩ := classify_lossless true mixedBatch.operations
  obtain ⟨-, -, haligned⟩ := hresults [true, false] [false, true]
  obtain ⟨results, hok, hunique, hwritten⟩ := haligned (by decide) (by decide)
  have hassembles : (classify true mixedBatch.operations).Assembles mixedBatch.operations.length
      [true, false] [false, true] [false, true, false, true] := ⟨by decide, by decide, by decide⟩
  rw [← (hunique _).1 hassembles] at hok hwritten
  exact ⟨by decide, hok, hwritten _ (by decide)⟩

end Settlement
