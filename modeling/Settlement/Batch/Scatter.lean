import Settlement.Batch.Group

namespace Settlement

/-- The entries, with the values written over those at the positions, one after the other. A
position beyond the end writes nothing. -/
def scatter {α : Type} (entries : List α) (positions : List Nat) (values : List α) : List α :=
  (positions.zip values).foldl (fun entries write => entries.set write.1 write.2) entries

section Scatter

variable {α : Type}

theorem length_scatter (entries : List α) (positions : List Nat) (values : List α) :
    (scatter entries positions values).length = entries.length := by
  induction positions generalizing entries values with
  | nil => rfl
  | cons position positions ih =>
    cases values with
    | nil => rfl
    | cons value values => exact (ih (entries.set position value) values).trans List.length_set

theorem getElem?_scatter_of_not_mem {positions : List Nat} {i : Nat} (h : i ∉ positions)
    (entries values : List α) : (scatter entries positions values)[i]? = entries[i]? := by
  induction positions generalizing entries values with
  | nil => rfl
  | cons position positions ih =>
    cases values with
    | nil => rfl
    | cons value values =>
      have hne : i ≠ position := List.ne_of_not_mem_cons h
      have hrest : i ∉ positions := List.not_mem_of_not_mem_cons h
      exact (ih hrest (entries.set position value) values).trans
        (List.getElem?_set_ne (Ne.symm hne))

/-- Each value stands at its position afterwards, since the positions are distinct and none is
written over by a later one. -/
theorem map_getElem?_scatter {entries values : List α} {positions : List Nat}
    (hnodup : positions.Nodup) (hbound : ∀ i ∈ positions, i < entries.length)
    (hlength : values.length = positions.length) :
    positions.map (fun i => (scatter entries positions values)[i]?) = values.map some := by
  induction positions generalizing entries values with
  | nil =>
    obtain rfl := List.eq_nil_of_length_eq_zero hlength
    rfl
  | cons position positions ih =>
    cases values with
    | nil => cases hlength
    | cons value values =>
      obtain ⟨hfresh, hnodup⟩ := List.nodup_cons.1 hnodup
      obtain ⟨hposition, hbound⟩ := List.forall_mem_cons.1 hbound
      have hbound' : ∀ i ∈ positions, i < (entries.set position value).length := by
        rw [List.length_set]
        exact hbound
      have hhead : (scatter (entries.set position value) positions values)[position]? =
          some value := by
        rw [getElem?_scatter_of_not_mem hfresh, List.getElem?_set_self hposition]
      rw [List.map_cons, List.map_cons, List.cons.injEq]
      exact ⟨hhead, ih hnodup hbound' (Nat.succ.inj hlength)⟩

end Scatter

/-- The group with one more operation at its end. In this order the positions of a group are
increasing. -/
def OperationGroup.add (g : OperationGroup) (member : SignedOperation × Nat) : OperationGroup :=
  { g with members := g.members ++ [member] }

namespace Partition

/-- The groups with one more operation. It goes to the weak group if it is weak and the era path is
open, and to the strong group otherwise. -/
def add (eraPath : Bool) (p : Partition) (member : SignedOperation × Nat) : Partition :=
  match member.1.kind, eraPath with
  | .weak, true => { p with weak := p.weak.add member }
  | _, _ => { p with strong := p.strong.add member }

/-- The groups of a batch, filled operation by operation. This is classification as it runs; it
gives the groups of `classify`. -/
def ofOperations (eraPath : Bool) (operations : List SignedOperation) : Partition :=
  operations.zipIdx.foldl (add eraPath) ⟨⟨.weak, []⟩, ⟨.strong, []⟩⟩

/-- The results of the groups, written over the entries of a list, each at the position of its
operation. -/
def writeOver (p : Partition) (entries weakResults strongResults : List Bool) :
    Result (List Bool) := do
  require (weakResults.length = p.weak.size) (.lengthMismatch p.weak.size weakResults.length)
  require (strongResults.length = p.strong.size)
    (.lengthMismatch p.strong.size strongResults.length)
  let written := scatter entries p.weak.indexMap weakResults
  return scatter written p.strong.indexMap strongResults

/-- The results of the groups in the order of the batch, written over a list of failures that has
the length of the batch from the start. -/
def assemble (p : Partition) (weakResults strongResults : List Bool) : Result (List Bool) :=
  p.writeOver (List.replicate p.total false) weakResults strongResults

end Partition

end Settlement
